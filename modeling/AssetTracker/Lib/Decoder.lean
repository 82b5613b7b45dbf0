import AssetTracker.Lib.Stringify

/-!
# Decoding objects of strings

A stream decoder that fills two string fields from the first value of a text, as
Go's `encoding/json` does: names count up to case, `null` changes nothing, other
members are passed over, and so is what follows the value.

Results:
1. `decodeStrings_writeObject`: an object of the two fields is decoded to them;
   `decodeStrings_stringify`: the same for one that JavaScript has written, where a
   missing field is decoded as empty.
-/

namespace Encoding

open Text

/-! ## Names -/

/-- The case of a letter is left out. Two letters of ASCII have a third form each. -/
def foldChar (c : Char) : Char :=
  if c = 'ſ' then 's' else if c = '\u212A' then 'k' else c.toLower

def foldName (s : String) : List Char := s.toList.map foldChar

/-- `strings.EqualFold`, where one of the two is of ASCII. -/
def equalFold (s t : String) : Bool := foldName s == foldName t

/-! ## Decoding -/

mutual
/-- How deep arrays and objects are nested. -/
def Json.depth : Json → Nat
  | .arr elems => depthElems elems + 1
  | .obj members => depthMembers members + 1
  | _ => 0

def depthElems : List Json → Nat
  | [] => 0
  | v :: vs => max v.depth (depthElems vs)

def depthMembers : List (JsString × Json) → Nat
  | [] => 0
  | (_, v) :: ms => max v.depth (depthMembers ms)
end

/-- The first value of a text, whatever follows. -/
def firstValue (s : String) : Option Json :=
  (readValue (2 * s.toList.length + 1) s.toList).map Prod.fst

/-- Go refuses values that are nested deeper. -/
def maxNestingDepth : Nat := 10000

/-- A string field after the members in turn; `none` when one has a value of another type. -/
def stringField (name : String) (old : String) : List (JsString × Json) → Option String
  | [] => some old
  | (k, v) :: ms =>
    if equalFold (ofUtf16 k) name then
      match v with
      | .str s => stringField name (ofUtf16 s) ms
      | .null => stringField name old ms
      | _ => none
    else stringField name old ms

/-- `Decode` into a structure of two string fields, whose names differ in more than case. -/
def decodeStrings (first second : String) (body : ByteArray) : Option (String × String) :=
  match firstValue (decodeUtf8 (List.replicate · '\uFFFD') body) with
  | some .null => some ("", "")
  | some (.obj members) =>
    if (Json.obj members).depth ≤ maxNestingDepth then
      match stringField first "" members, stringField second "" members with
      | some x, some y => some (x, y)
      | _, _ => none
    else none
  | _ => none

/-! ## 1. Round trip -/

theorem firstValue_of_parse {s : String} {v : Json} (h : parse s = some v) :
    firstValue s = some v := by
  unfold parse at h
  unfold firstValue
  split at h
  · next v' cs hv =>
    split at h
    · rw [hv]
      exact h
    · cases h
  · cases h

theorem decodeStrings_writeObject {first second x y : String}
    (h : equalFold first second = false) :
    decodeStrings first second (writeObject [(first, x), (second, y)]).toUTF8 = some (x, y) := by
  have h' : equalFold second first = false := by
    rw [equalFold, beq_eq_false_iff_ne] at h ⊢
    exact h.symm
  have hself : ∀ s, equalFold s s = true := fun s => beq_self_eq_true (foldName s)
  unfold decodeStrings
  rw [decodeUtf8_toUTF8, firstValue_of_parse (parse_writeObject _)]
  simp [Json.depth, depthMembers, maxNestingDepth, stringField, h, h', hself]

theorem decodeStrings_stringify {first second : String} {x y : Option JsString}
    (h : equalFold first second = false) :
    decodeStrings first second (stringify [(utf16 first, x), (utf16 second, y)]).toUTF8 =
      some ((x.map ofUtf16).getD "", (y.map ofUtf16).getD "") := by
  have h' : equalFold second first = false := by
    rw [equalFold, beq_eq_false_iff_ne] at h ⊢
    exact h.symm
  have hself : ∀ s, equalFold s s = true := fun s => beq_self_eq_true (foldName s)
  unfold decodeStrings
  rw [decodeUtf8_toUTF8, firstValue_of_parse (parse_stringify _)]
  cases x <;> cases y <;>
    simp [Json.depth, depthMembers, maxNestingDepth, stringField, h, h', hself]

end Encoding
