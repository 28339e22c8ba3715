import Chartkeeper.Text.Assoc
/-!
# TOML items

What a key of a TOML document stands for. A table remembers how it came to be, because that
decides in which ways it may still grow: a table of its own header or an inline one is closed to
dotted keys, and no table gets two headers.
-/

namespace Chartkeeper.Toml

/-- How a table came to be: by a header, on the way to one, by dotted keys, or inline. -/
inductive Origin where
  | header
  | implied
  | dotted
  | inline
  deriving DecidableEq, Repr

/-- What a key stands for. Numbers with a fraction and moments are kept as written; the elements
of an array of tables are kept newest first. -/
inductive Item where
  | text (s : String)
  | whole (n : Int)
  | truth (b : Bool)
  | fraction (written : String)
  | moment (written : String)
  | list (items : List Item)
  | tables (elements : List (List (String × Item)))
  | table (origin : Origin) (rows : List (String × Item))
  deriving Inhabited

/-- The rows of a table, in the order in which their keys first came. -/
abbrev Rows := Assoc String Item

/-- Changes the table at the end of a path of keys. Tables that are missing on the way come to
be as `origin` says; a way through elements goes through the newest. -/
def alter (origin : Origin) (change : Origin → Rows → Option (Origin × Rows)) :
    List String → Origin → Rows → Option (Origin × Rows)
  | [], here, rows => change here rows
  | key :: path, here, rows =>
    match Assoc.get? key rows with
    | none => do
      let (o, r) ← alter origin change path origin []
      return (here, Assoc.insert key (.table o r) rows)
    | some (.table o r) =>
      if o = .inline || (origin = .dotted && o = .header) then none
      else do
        let (o, r) ← alter origin change path o r
        return (here, Assoc.insert key (.table o r) rows)
    | some (.tables (element :: older)) => do
      let (_, r) ← alter origin change path .header element
      return (here, Assoc.insert key (.tables (r :: older)) rows)
    | some _ => none

/-- Gives a key that comes after a path of dotted keys its item. The key must be new, and dotted
keys add to tables of dotted keys alone. -/
def put (path : List String) (key : String) (item : Item) (here : Origin) (rows : Rows) :
    Option (Origin × Rows) :=
  alter .dotted
    (fun o r =>
      -- at the end of a path stands a table of dotted keys, without a path any other
      if decide (o = .dotted) == path.isEmpty || (Assoc.get? key r).isSome then none
      else some (o, Assoc.insert key item r))
    path here rows

/-- Opens the table of a header. -/
def openTable (path : List String) (key : String) (rows : Rows) : Option Rows :=
  (alter .implied
    (fun o r =>
      match Assoc.get? key r with
      | none => some (o, Assoc.insert key (.table .header []) r)
      | some (.table .implied inner) => some (o, Assoc.insert key (.table .header inner) r)
      | some _ => none)
    path .header rows).map Prod.snd

/-- Opens a new element of an array of tables. -/
def openElement (path : List String) (key : String) (rows : Rows) : Option Rows :=
  (alter .implied
    (fun o r =>
      match Assoc.get? key r with
      | none => some (o, Assoc.insert key (.tables [[]]) r)
      | some (.tables elements) => some (o, Assoc.insert key (.tables ([] :: elements)) r)
      | some _ => none)
    path .header rows).map Prod.snd

end Chartkeeper.Toml
