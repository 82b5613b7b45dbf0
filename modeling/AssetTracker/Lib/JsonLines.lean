import AssetTracker.Lib.Json
import Mathlib.Algebra.Order.BigOperators.Group.List
import Mathlib.Algebra.Order.Ring.Nat

/-!
# Objects and arrays of objects

Their texts, alone or as the line that a stream encoder writes.

`parse_arrayText`, `parse_objectLine`, `parse_arrayLine`: a text is read as the value that
was written.
-/

namespace Encoding

open Text

/-! ## Writing -/

def objectChars (ms : List MemberText) : List Char := '\x7b' :: membersText ms ++ ['\x7d']

/-- The texts of objects, with commas between them. -/
def elementsText : List (List MemberText) → List Char
  | [] => []
  | [o] => objectChars o
  | o :: os => objectChars o ++ ',' :: elementsText os

def objectLine (ms : List MemberText) : String := String.ofList (objectChars ms ++ ['\n'])

def arrayChars (os : List (List MemberText)) : List Char := '[' :: elementsText os ++ [']']

def arrayText (os : List (List MemberText)) : String := String.ofList (arrayChars os)

def arrayLine (os : List (List MemberText)) : String := String.ofList (arrayChars os ++ ['\n'])

def objectOf (ms : List MemberText) : Json := .obj (ms.map MemberText.member)

/-! ## Reading back -/

namespace JsonLemmas

/-- An object is read with fuel for its members, whatever follows. -/
theorem readValue_objectChars (ms : List MemberText) {n : Nat} (hn : ms.length + 1 < n)
    (cs : List Char) : readValue n (objectChars ms ++ cs) = some (objectOf ms, cs) := by
  obtain ⟨k, rfl⟩ : ∃ k, n = k + 1 := ⟨n - 1, by omega⟩
  simp only [objectChars, List.cons_append, List.append_assoc, List.nil_append]
  cases ms with
  | nil =>
    rw [membersText, List.nil_append, readValue, skipWs_cons (by decide)]
    rfl
  | cons m ms =>
    have h := readMembers_membersText (m :: ms) (List.cons_ne_nil _ _) k (by omega) cs
    obtain ⟨cs', hcs⟩ := membersText_cons m ms
    rw [hcs, List.cons_append] at h ⊢
    rw [readValue_members, h]
    rfl

/-- An element with others after it. -/
theorem readElements_comma {n : Nat} {v : Json} {cs cs' : List Char}
    (h : readValue n cs = some (v, ',' :: cs')) :
    readElements (n + 1) cs = (readElements n cs').map fun p => (v :: p.1, p.2) := by
  rw [readElements, h]
  dsimp only
  rw [skipWs_cons (by decide)]
  rfl

/-- The last element. -/
theorem readElements_bracket {n : Nat} {v : Json} {cs cs' : List Char}
    (h : readValue n cs = some (v, ']' :: cs')) : readElements (n + 1) cs = some ([v], cs') := by
  rw [readElements, h]
  dsimp only
  rw [skipWs_cons (by decide)]
  rfl

theorem readElements_elementsText (os : List (List MemberText)) (hne : os ≠ []) {n k : Nat}
    (hk : ∀ o ∈ os, o.length ≤ k) (hn : os.length + k + 2 ≤ n) (cs : List Char) :
    readElements n (elementsText os ++ ']' :: cs) = some (os.map objectOf, cs) := by
  induction os generalizing n with
  | nil => exact absurd rfl hne
  | cons o os ih =>
    obtain ⟨m, rfl⟩ : ∃ m, n = m + 1 := ⟨n - 1, by omega⟩
    rw [List.length_cons] at hn
    have ho : o.length + 1 < m := by
      have := hk o List.mem_cons_self
      omega
    cases os with
    | nil => exact readElements_bracket (readValue_objectChars o ho _)
    | cons o' os =>
      have hrest := ih (n := m) (List.cons_ne_nil _ _) (fun x hx => hk x (List.mem_cons_of_mem _ hx))
        (by omega)
      rw [elementsText, List.append_assoc, List.cons_append,
        readElements_comma (readValue_objectChars o ho _), hrest]
      · rfl
      · exact fun h => List.cons_ne_nil _ _ h

/-- An array is read with enough fuel, whatever follows. -/
theorem readValue_arrayChars (os : List (List MemberText)) (cs : List Char) :
    ∃ n, readValue n (arrayChars os ++ cs) = some (.arr (os.map objectOf), cs) := by
  obtain ⟨k, hk⟩ : ∃ k, ∀ o ∈ os, o.length ≤ k := by
    refine ⟨(os.map List.length).sum, fun o ho => ?_⟩
    exact List.single_le_sum (fun _ _ => Nat.zero_le _) _ (List.mem_map_of_mem ho)
  refine ⟨os.length + k + 3, ?_⟩
  rw [arrayChars, List.cons_append, List.cons_append, List.append_assoc, List.singleton_append]
  cases os with
  | nil => rfl
  | cons o os =>
    have h := readElements_elementsText (o :: os) (List.cons_ne_nil _ _) hk (Nat.le_refl _) cs
    obtain ⟨ds, hds⟩ : ∃ ds, elementsText (o :: os) = '\x7b' :: ds := by
      cases os <;> exact ⟨_, rfl⟩
    rw [hds] at h ⊢
    simp only [List.cons_append] at h ⊢
    rw [readValue, skipWs_cons (by decide)]
    show (readElements _ ('\x7b' :: (ds ++ ']' :: cs))).map _ = _
    rw [h]
    rfl

end JsonLemmas

open JsonLemmas

theorem parse_objectLine (ms : List MemberText) : parse (objectLine ms) = some (objectOf ms) := by
  refine parse_eq_some.mpr ⟨ms.length + 2, ['\n'], ?_, rfl⟩
  rw [objectLine, String.toList_ofList]
  exact readValue_objectChars ms (Nat.lt_succ_self _) ['\n']

theorem parse_arrayLine (os : List (List MemberText)) :
    parse (arrayLine os) = some (.arr (os.map objectOf)) := by
  obtain ⟨n, hn⟩ := readValue_arrayChars os ['\n']
  refine parse_eq_some.mpr ⟨n, ['\n'], ?_, rfl⟩
  rw [arrayLine, String.toList_ofList, hn]

theorem parse_arrayText (os : List (List MemberText)) :
    parse (arrayText os) = some (.arr (os.map objectOf)) := by
  obtain ⟨n, hn⟩ := readValue_arrayChars os []
  rw [List.append_nil] at hn
  refine parse_eq_some.mpr ⟨n, [], ?_, rfl⟩
  rw [arrayText, String.toList_ofList, hn]

end Encoding
