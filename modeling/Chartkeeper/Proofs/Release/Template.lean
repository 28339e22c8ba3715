import Mathlib.Data.List.Forall2
import Chartkeeper.Proofs.Text.Cut
import Chartkeeper.Release.Template
/-!
# What templates render to

A template is a row of literals with expressions between them, each in double braces, and perhaps an
open pair of braces at its end that nothing closes. It is rendered part by part: literals and the
open end stay, each expression is replaced by what it stands for, and what was put in is not looked
at again, whatever braces it holds.

- `Scope.Stands`: what an expression stands for, and `stands_iff_expand` that nothing else is put in.
- `Part.Written`, `Ends`: how a template has to be written for its braces to be found.
- `renderText_source`: the rendered text, part by part.
- `exists_source`: every text is a template of this form.
-/

namespace Chartkeeper.Template

/-! ## Values -/

/-- The value at a path through objects. -/
inductive At : (path : List (List Char)) → (v w : Json) → Prop
  | here (v : Json) : At [] v v
  | key {fields : Table Json} {key : List Char} {path : List (List Char)} {v w : Json}
      (hkey : fields.get? (String.ofList key) = some v) (h : At path v w) :
      At (key :: path) (.obj fields) w

theorem lookup_eq_some_iff {path : List (List Char)} {v w : Json} :
    lookup path v = some w ↔ At path v w := by
  constructor
  · intro h
    induction path generalizing v with
    | nil =>
      obtain rfl := Option.some.inj h
      exact .here v
    | cons key path ih =>
      obtain ⟨u, hkey, hpath⟩ := Option.bind_eq_some_iff.mp h
      cases v with
      | obj fields => exact .key hkey (ih hpath)
      | null | bool | int | float | str | arr => exact nomatch hkey
  · intro h
    induction h with
    | here v => rfl
    | key hkey _ ih => exact Option.bind_eq_some_iff.mpr ⟨_, hkey, ih⟩

/-- How a value stands in a rendered text: a text as it is, null as nothing, and all else as compact
JSON. -/
inductive Shown : Json → List Char → Prop
  | text (s : String) : Shown (.str s) s.toList
  | null : Shown .null []
  | other (v : Json) (htext : ∀ s, v ≠ .str s) (hnull : v ≠ .null) : Shown v v.text.toList

theorem shown_iff_valueText {v : Json} {text : List Char} : Shown v text ↔ valueText v = text := by
  constructor
  · intro h
    cases h with
    | text s => rfl
    | null => rfl
    | other v htext hnull =>
      cases v with
      | str s => exact absurd rfl (htext s)
      | null => exact absurd rfl hnull
      | bool | int | float | arr | obj => rfl
  · rintro rfl
    cases v with
    | str s => exact .text s
    | null => exact .null
    | bool | int | float | arr | obj => exact .other _ nofun nofun

/-! ## Expressions -/

/-- A text that starts as a path into the values does. -/
def valuesMark : List Char := ".Values.".toList

/-- What an expression stands for, the blank characters around it left away: the name or the
namespace of the release, the value at a path, or nothing. -/
inductive Scope.Stands (scope : Scope) (expression : List Char) : List Char → Prop
  | release (h : Text.Trimmed expression ".Release.Name".toList) :
      scope.Stands expression scope.release
  | namespaceName (h : Text.Trimmed expression ".Release.Namespace".toList) :
      scope.Stands expression scope.namespaceName
  | value {parts : List (List Char)} {v : Json} {text : List Char}
      (h : Text.Trimmed expression (valuesMark ++ List.intercalate ['.'] parts))
      (hne : parts ≠ []) (hparts : ∀ part ∈ parts, '.' ∉ part)
      (hv : At (parts.filter (· ≠ [])) scope.values v) (htext : Shown v text) :
      scope.Stands expression text
  | missing {parts : List (List Char)}
      (h : Text.Trimmed expression (valuesMark ++ List.intercalate ['.'] parts))
      (hne : parts ≠ []) (hparts : ∀ part ∈ parts, '.' ∉ part)
      (hv : ∀ v, ¬At (parts.filter (· ≠ [])) scope.values v) : scope.Stands expression []
  | unknown {core : List Char} (h : Text.Trimmed expression core)
      (hrelease : core ≠ ".Release.Name".toList)
      (hnamespace : core ≠ ".Release.Namespace".toList) (hvalues : ¬valuesMark <+: core) :
      scope.Stands expression []

variable {scope : Scope} {expression text : List Char}

/-- What is said of a path holds of its parts that are not empty. -/
theorem lookup_pieces {parts : List (List Char)} (hne : parts ≠ [])
    (hparts : ∀ part ∈ parts, '.' ∉ part) (v : Json) :
    lookup ((Text.pieces '.' (List.intercalate ['.'] parts)).filter fun key => !key.isEmpty) v =
      lookup (parts.filter (· ≠ [])) v := by
  rw [Text.pieces_intercalate hne hparts]
  congr 1
  refine List.filter_congr fun key _ => ?_
  cases key with
  | nil => rfl
  | cons c key => rfl

theorem valuesMark_append_ne (path : List Char) :
    valuesMark ++ path ≠ ".Release.Name".toList ∧
      valuesMark ++ path ≠ ".Release.Namespace".toList := by
  have hsecond : (valuesMark ++ path)[1]? = some 'V' := rfl
  constructor
  · intro heq
    rw [heq] at hsecond
    exact absurd hsecond (by decide)
  · intro heq
    rw [heq] at hsecond
    exact absurd hsecond (by decide)

/-- A path into the values is looked up there. -/
theorem Scope.expand_of_values {path : List Char}
    (h : Text.Trimmed expression (valuesMark ++ path)) :
    scope.expand expression =
      ((lookup ((Text.pieces '.' path).filter fun key => !key.isEmpty) scope.values).map
        valueText).getD [] := by
  obtain ⟨hrelease, hnamespace⟩ := valuesMark_append_ne path
  have hpath : Text.afterStart? ".Values.".toList (valuesMark ++ path) = some path :=
    Text.afterStart?_eq_some_iff.mpr rfl
  unfold Scope.expand
  simp only [h.eq, if_neg hrelease, if_neg hnamespace, hpath]
  cases lookup _ scope.values with
  | none => rfl
  | some v => rfl

theorem Scope.Stands.expand (h : scope.Stands expression text) : scope.expand expression = text := by
  cases h with
  | release h =>
    unfold Scope.expand
    rw [h.eq]
    exact if_pos rfl
  | namespaceName h =>
    unfold Scope.expand
    rw [h.eq]
    exact (if_neg (by decide)).trans (if_pos rfl)
  | value h hne hparts hv htext =>
    rw [expand_of_values h, lookup_pieces hne hparts, lookup_eq_some_iff.mpr hv]
    exact shown_iff_valueText.mp htext
  | missing h hne hparts hv =>
    rw [expand_of_values h, lookup_pieces hne hparts]
    cases hlookup : lookup (List.filter _ _) scope.values with
    | none => rfl
    | some v => exact absurd (lookup_eq_some_iff.mp hlookup) (hv v)
  | unknown h hrelease hnamespace hvalues =>
    have hpath : Text.afterStart? ".Values.".toList _ = none :=
      Text.afterStart?_eq_none_iff.mpr hvalues
    unfold Scope.expand
    simp only [h.eq, if_neg hrelease, if_neg hnamespace, hpath]

/-- Every expression stands for something. -/
theorem Scope.exists_stands (scope : Scope) (expression : List Char) :
    ∃ text, scope.Stands expression text := by
  have htrimmed := Text.trimmed_trimChars expression
  by_cases hrelease : Text.trimChars expression = ".Release.Name".toList
  · exact ⟨_, .release (hrelease ▸ htrimmed)⟩
  by_cases hnamespace : Text.trimChars expression = ".Release.Namespace".toList
  · exact ⟨_, .namespaceName (hnamespace ▸ htrimmed)⟩
  by_cases hvalues : valuesMark <+: Text.trimChars expression
  · obtain ⟨path, hpath⟩ := hvalues
    obtain ⟨hjoin, hparts⟩ := Text.intercalate_pieces '.' path
    have hne := Text.pieces_ne_nil '.' path
    rw [← hpath, ← hjoin] at htrimmed
    by_cases hv : ∃ v, At ((Text.pieces '.' path).filter (· ≠ [])) scope.values v
    · obtain ⟨v, hv⟩ := hv
      exact ⟨_, .value htrimmed hne hparts hv (shown_iff_valueText.mpr rfl)⟩
    · exact ⟨_, .missing htrimmed hne hparts (not_exists.mp hv)⟩
  · exact ⟨_, .unknown htrimmed hrelease hnamespace hvalues⟩

/-- **What an expression stands for** is what is put in for it, and nothing else. -/
theorem Scope.stands_iff_expand : scope.Stands expression text ↔ scope.expand expression = text := by
  refine ⟨Scope.Stands.expand, ?_⟩
  rintro rfl
  obtain ⟨text, h⟩ := scope.exists_stands expression
  rwa [h.expand]

/-! ## Rendering -/

/-- A literal of a template with the expression that comes after it. -/
structure Part where
  literal : List Char
  expression : List Char

/-- How a part has to be for its braces to be found: the literal holds no pair of open braces and
does not end in half of one, and the expression none of closing ones. -/
structure Part.Written (part : Part) : Prop where
  literal : Text.Clear '\x7b' part.literal
  expression : Text.Clear '\x7d' part.expression

/-- What comes after the last part: a literal alone, or one with a pair of open braces that nothing
closes. -/
inductive Ends : List Char → Prop
  | plain {literal : List Char} (h : ¬opening <:+: literal) : Ends literal
  | unclosed {literal after : List Char} (h : Text.Clear '\x7b' literal)
      (hafter : ¬closing <:+: after) : Ends (literal ++ opening ++ after)

/-- The template that the parts are written as. -/
def source (parts : List Part) (rest : List Char) : List Char :=
  parts.flatMap (fun part => part.literal ++ opening ++ part.expression ++ closing) ++ rest

/-- The template with a text in place of each expression. -/
def filled (parts : List Part) (texts : List (List Char)) (rest : List Char) : List Char :=
  (List.zipWith (fun part text => part.literal ++ text) parts texts).flatten ++ rest

theorem source_cons (part : Part) (parts : List Part) (rest : List Char) :
    source (part :: parts) rest =
      part.literal ++ opening ++ (part.expression ++ closing ++ source parts rest) := by
  simp only [source, List.flatMap_cons, List.append_assoc]

theorem filled_cons (part : Part) (parts : List Part) (text : List Char) (texts : List (List Char))
    (rest : List Char) : filled (part :: parts) (text :: texts) rest =
      part.literal ++ text ++ filled parts texts rest := by
  simp only [filled, List.zipWith_cons_cons, List.flatten_cons, List.append_assoc]

theorem render_eq (scope : Scope) (template : List Char) : render scope template =
    match Text.cutMark opening template with
    | none => template
    | some (head, after) =>
      match Text.cutMark closing after with
      | none => template
      | some (expression, tail) => head ++ scope.expand expression ++ render scope tail := by
  rw [render]
  split
  next hcut => rw [hcut]
  next hcut =>
    rw [hcut]
    split
    next hclose => simp only [hclose]
    next hclose => simp only [hclose]

/-- What comes after the last part stays as it is. -/
theorem Ends.render {rest : List Char} (h : Ends rest) : render scope rest = rest := by
  cases h with
  | plain h =>
    have hcut : Text.cutMark opening rest = none := Text.cutMark_eq_none_iff.mpr h
    rw [render_eq, hcut]
  | @unclosed literal after h hafter =>
    have hcut : Text.cutMark opening (literal ++ opening ++ after) = some (literal, after) :=
      Text.cutMark_of_clear h after
    have hclose : Text.cutMark closing after = none := Text.cutMark_eq_none_iff.mpr hafter
    rw [render_eq, hcut]
    simp only [hclose]

/-- One turn of the pass: the first part is put down, and the rest is rendered on its own. -/
theorem Part.Written.render {part : Part} (h : part.Written) (parts : List Part)
    (rest : List Char) : render scope (source (part :: parts) rest) =
      part.literal ++ scope.expand part.expression ++ render scope (source parts rest) := by
  have hcut : Text.cutMark opening (source (part :: parts) rest) =
      some (part.literal, part.expression ++ closing ++ source parts rest) := by
    rw [source_cons]
    exact Text.cutMark_of_clear h.literal _
  have hclose : Text.cutMark closing (part.expression ++ closing ++ source parts rest) =
      some (part.expression, source parts rest) :=
    Text.cutMark_of_clear h.expression _
  rw [render_eq, hcut]
  simp only [hclose]

theorem render_of_stands {parts : List Part} {texts : List (List Char)} {rest : List Char}
    (hparts : ∀ part ∈ parts, part.Written) (hrest : Ends rest)
    (htexts : List.Forall₂ (fun part text => scope.Stands part.expression text) parts texts) :
    render scope (source parts rest) = filled parts texts rest := by
  induction htexts with
  | nil => exact hrest.render
  | cons hstands _ ih =>
    obtain ⟨hpart, hparts⟩ := List.forall_mem_cons.mp hparts
    rw [hpart.render, filled_cons, hstands.expand, ih hparts]

theorem exists_texts (scope : Scope) (parts : List Part) :
    ∃ texts, List.Forall₂ (fun part text => scope.Stands part.expression text) parts texts := by
  induction parts with
  | nil => exact ⟨[], .nil⟩
  | cons part parts ih =>
    obtain ⟨text, htext⟩ := scope.exists_stands part.expression
    obtain ⟨texts, htexts⟩ := ih
    exact ⟨text :: texts, .cons htext htexts⟩

/-- **A template is rendered in one pass.** Each expression is replaced by what it stands for, and
all else stays, also an open end. What the texts hold that are put in has no part in it. -/
theorem renderText_source {parts : List Part} {rest : List Char}
    (hparts : ∀ part ∈ parts, part.Written) (hrest : Ends rest) (values : Json)
    (name namespaceName : String) :
    let scope : Scope := ⟨values, name.toList, namespaceName.toList⟩
    (∃ texts, List.Forall₂ (fun part text => scope.Stands part.expression text) parts texts) ∧
      ∀ texts, List.Forall₂ (fun part text => scope.Stands part.expression text) parts texts →
        renderText (String.ofList (source parts rest)) values name namespaceName =
          String.ofList (filled parts texts rest) := by
  intro scope
  refine ⟨exists_texts scope parts, fun texts htexts => ?_⟩
  unfold renderText
  rw [String.toList_ofList, render_of_stands hparts hrest htexts]

/-- A memo with the name of its release, a note that is a placeholder itself, a size that is no
text, an expression that is unknown, and an open end. -/
def memo : List Part :=
  [⟨"to ".toList, " .Release.Name ".toList⟩, ⟨": \x7b ".toList, ".Values..note".toList⟩,
    ⟨" \x7d ".toList, ".Values.size".toList⟩, ⟨[], "note".toList⟩]

def memoRest : List Char := [' '] ++ opening ++ " .Values.note".toList

def memoSize : Json := .obj [("large", .bool true), ("shelves", .arr [.int 3, .str "a"])]

def memoValues : Json :=
  .obj [("note", .str "\x7b\x7b .Release.Name \x7d\x7d"), ("size", memoSize)]

theorem renderText_source_memo :
    (∀ part ∈ memo, part.Written) ∧ Ends memoRest ∧
      renderText (String.ofList (source memo memoRest)) memoValues "demo" "apps" =
        "to demo: \x7b \x7b\x7b .Release.Name \x7d\x7d \x7d " ++
          "\x7b\"large\":true,\"shelves\":[3,\"a\"]\x7d \x7b\x7b .Values.note" := by
  have hparts : ∀ part ∈ memo, part.Written := by
    have hwritten : ∀ part ∈ memo,
        Text.Clear '\x7b' part.literal ∧ Text.Clear '\x7d' part.expression := by
      unfold Text.Clear
      decide
    exact fun part hpart => ⟨(hwritten part hpart).1, (hwritten part hpart).2⟩
  have hrest : Ends memoRest := .unclosed ⟨by decide, by decide⟩ (by decide)
  let scope : Scope := ⟨memoValues, "demo".toList, "apps".toList⟩
  have hname : scope.Stands " .Release.Name ".toList scope.release :=
    .release (Text.trimmed_iff.mpr (by decide))
  have hnote : scope.Stands ".Values..note".toList "\x7b\x7b .Release.Name \x7d\x7d".toList :=
    @Scope.Stands.value scope _ [[], "note".toList] _ _ (Text.trimmed_iff.mpr (by decide))
      (by decide) (by decide) (.key rfl (.here _)) (.text _)
  have hsize : scope.Stands ".Values.size".toList memoSize.text.toList :=
    @Scope.Stands.value scope _ ["size".toList] _ _ (Text.trimmed_iff.mpr (by decide))
      (by decide) (by decide) (.key rfl (.here _)) (.other _ nofun nofun)
  have hunknown : scope.Stands "note".toList [] :=
    @Scope.Stands.unknown scope _ "note".toList (Text.trimmed_iff.mpr (by decide)) (by decide)
      (by decide) (by decide)
  have h := (renderText_source hparts hrest memoValues "demo" "apps").2 _
    (.cons hname (.cons hnote (.cons hsize (.cons hunknown .nil))))
  exact ⟨hparts, hrest, h.trans (by decide)⟩

/-- Every text is a template of this form. -/
theorem exists_source (template : List Char) :
    ∃ parts rest, template = source parts rest ∧ (∀ part ∈ parts, part.Written) ∧ Ends rest := by
  induction template using render.induct with
  | case1 template hcut =>
    exact ⟨[], template, rfl, nofun, .plain (Text.cutMark_eq_none_iff.mp hcut)⟩
  | case2 template literal after hcut hopen =>
    obtain ⟨rfl, hliteral⟩ := Text.cutMark_eq_some hcut
    exact ⟨[], _, rfl, nofun, .unclosed hliteral (Text.cutMark_eq_none_iff.mp hopen)⟩
  | case3 template literal after hcut expression tail hclose ih =>
    obtain ⟨rfl, hliteral⟩ := Text.cutMark_eq_some hcut
    obtain ⟨rfl, hexpression⟩ := Text.cutMark_eq_some hclose
    obtain ⟨parts, rest, rfl, hparts, hrest⟩ := ih
    exact ⟨⟨literal, expression⟩ :: parts, rest, (source_cons ⟨literal, expression⟩ parts rest).symm,
      List.forall_mem_cons.mpr ⟨⟨hliteral, hexpression⟩, hparts⟩, hrest⟩

end Chartkeeper.Template
