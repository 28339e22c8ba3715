import Chartkeeper.Json.Text
import Chartkeeper.Text.Blank
import Chartkeeper.Text.Cut
/-!
# Chart templates

A template is a text with placeholders between double braces. Rendering is one pass from left
to right: each placeholder is replaced by what its expression stands for, and what was put in
is not looked at again. A placeholder that is not closed ends the pass, and stays as it is.
-/

namespace Chartkeeper.Template

/-- The mark that opens a placeholder. -/
def opening : List Char := ['\x7b', '\x7b']

/-- The mark that closes a placeholder. -/
def closing : List Char := ['\x7d', '\x7d']

/-- What a template is rendered with. -/
structure Scope where
  values : Json
  release : List Char
  namespaceName : List Char

/-- The value at a path through objects. -/
def lookup : (path : List (List Char)) → Json → Option Json
  | [], v => some v
  | key :: path, v => (v.get? (String.ofList key)).bind (lookup path)

/-- How a value stands in the rendered text: texts as they are, null as nothing, and all else
as compact JSON. -/
def valueText : Json → List Char
  | .str s => s.toList
  | .null => []
  | v => v.text.toList

/-- What an expression stands for; an unknown one stands for nothing. Empty parts of a path are
passed over. -/
def Scope.expand (scope : Scope) (expression : List Char) : List Char :=
  let e := Text.trimChars expression
  if e = ".Release.Name".toList then scope.release
  else if e = ".Release.Namespace".toList then scope.namespaceName
  else
    match Text.afterStart? ".Values.".toList e with
    | some path =>
      match lookup ((Text.pieces '.' path).filter fun key => !key.isEmpty) scope.values with
      | some v => valueText v
      | none => []
    | none => []

/-- The text after a mark is shorter than the whole. -/
theorem length_afterStart {mark text rest : List Char} (h : Text.afterStart? mark text = some rest) :
    rest.length + mark.length = text.length := by
  induction mark generalizing text with
  | nil => simp_all [Text.afterStart?]
  | cons m mark ih =>
    cases text with
    | nil => simp [Text.afterStart?] at h
    | cons c text =>
      simp only [Text.afterStart?] at h
      split at h
      · have := ih h
        simp only [List.length_cons]
        omega
      · simp at h

/-- Cutting a text at a mark loses the mark alone. -/
theorem length_cutMark {mark text head tail : List Char}
    (h : Text.cutMark mark text = some (head, tail)) :
    head.length + mark.length + tail.length = text.length := by
  induction text generalizing head with
  | nil =>
    simp only [Text.cutMark] at h
    split at h <;> simp_all
  | cons c text ih =>
    simp only [Text.cutMark] at h
    split at h
    next rest hs =>
      have := length_afterStart hs
      simp only [Option.some.injEq, Prod.mk.injEq] at h
      obtain ⟨rfl, rfl⟩ := h
      simp only [List.length_nil, List.length_cons] at *
      omega
    next =>
      simp only [Option.map_eq_some_iff, Prod.exists, Prod.mk.injEq] at h
      obtain ⟨a, b, hab, rfl, rfl⟩ := h
      have := ih hab
      simp only [List.length_cons]
      omega

/-- The rendered text of a template. -/
def render (scope : Scope) (template : List Char) : List Char :=
  match _opened : Text.cutMark opening template with
  | none => template
  | some (head, after) =>
    match _closed : Text.cutMark closing after with
    -- an open mark without a closing one stays, with all that follows it
    | none => template
    | some (expression, tail) => head ++ scope.expand expression ++ render scope tail
  termination_by template.length
  decreasing_by
    have := length_cutMark _opened
    have := length_cutMark _closed
    simp only [opening, closing, List.length_cons, List.length_nil] at *
    omega

/-- The rendered text of a template, for a release. -/
def renderText (template : String) (values : Json) (name namespaceName : String) : String :=
  String.ofList (render ⟨values, name.toList, namespaceName.toList⟩ template.toList)

end Chartkeeper.Template
