import AssetTracker.Lib.Http

/-!
# Paths of plain names

A path of names that need no escape is clean, and a router sees its names.
-/

namespace Http

/-- A name that every URL, proxy and router leaves as it is. -/
def isPlain (s : String) : Bool := !s.isEmpty && s.toList.all fun c => c.isAlphanum || c == '-'

def plainPath (names : List String) : String :=
  String.ofList ('/' :: ['/'].intercalate (names.map String.toList))

namespace PathLemmas

theorem plain_chars {s : String} (h : isPlain s = true) :
    s.toList ≠ [] ∧ ∀ c ∈ s.toList, c.isAlphanum = true ∨ c = '-' := by
  unfold isPlain at h
  rw [Bool.and_eq_true, List.all_eq_true] at h
  refine ⟨fun hnil => ?_, fun c hc => by simpa using h.2 c hc⟩
  rw [String.toList_eq_nil_iff] at hnil
  simp [hnil] at h

theorem not_mem_plain {s : String} {c : Char} (h : isPlain s = true) (hc : c.isAlphanum = false)
    (hne : c ≠ '-') : c ∉ s.toList := fun hmem => by
  rcases (plain_chars h).2 c hmem with hc' | hc'
  · rw [hc] at hc'
    cases hc'
  · exact hne hc'

theorem pathUnescape_plain {s : String} (h : isPlain s = true) : pathUnescape s = s :=
  if_neg (not_mem_plain h (by decide) (by decide))

theorem splitOn_plain {names : List String} (h : ∀ s ∈ names, isPlain s = true) (hne : names ≠ []) :
    List.splitOn '/' (['/'].intercalate (names.map String.toList)) = names.map String.toList := by
  refine List.splitOn_intercalate _ (fun l hl => ?_) (fun hnil => hne (List.map_eq_nil_iff.mp hnil))
  obtain ⟨s, hs, rfl⟩ := List.mem_map.mp hl
  exact not_mem_plain (h s hs) (by decide) (by decide)

theorem getLast?_intercalate {α : Type} {sep : List α} {ls : List (List α)} {l : List α}
    (h : l ≠ []) : (sep.intercalate (ls ++ [l])).getLast? = l.getLast? := by
  induction ls with
  | nil => rw [List.nil_append, List.intercalate_singleton]
  | cons a ls ih =>
    rw [List.cons_append, List.intercalate_cons_of_ne_nil (by simp), List.getLast?_append, ih]
    cases hl : l.getLast? with
    | none => exact absurd (List.getLast?_eq_none_iff.mp hl) h
    | some x => rfl

theorem not_mem_intercalate {α : Type} {x : α} {sep : List α} {ls : List (List α)} (hsep : x ∉ sep)
    (h : ∀ l ∈ ls, x ∉ l) : x ∉ sep.intercalate ls := by
  induction ls with
  | nil => exact List.not_mem_nil
  | cons l ls ih =>
    by_cases hls : ls = []
    · rw [hls, List.intercalate_singleton]
      exact h l List.mem_cons_self
    · rw [List.intercalate_cons_of_ne_nil hls, List.mem_append, List.mem_append]
      rintro ((hl | hl) | hl)
      · exact h l List.mem_cons_self hl
      · exact hsep hl
      · exact ih (fun l' hl' => h l' (List.mem_cons_of_mem _ hl')) hl

/-- No element of a plain path is left out or goes back. -/
theorem cleanElems_plain {names : List String} (h : ∀ s ∈ names, isPlain s = true) :
    cleanElems ([] :: names.map String.toList) = names.map String.toList := by
  have hfold : ∀ acc : List (List Char), (names.map String.toList).foldl (fun acc e =>
      if e = [] ∨ e = ['.'] then acc else if e = ['.', '.'] then acc.tail else e :: acc) acc =
        (names.map String.toList).reverse ++ acc := by
    induction names with
    | nil => exact fun acc => rfl
    | cons s names ih =>
      intro acc
      have hs := h s List.mem_cons_self
      have hdot : '.' ∉ s.toList := not_mem_plain hs (by decide) (by decide)
      rw [List.map_cons, List.foldl_cons, if_neg, if_neg,
        ih fun x hx => h x (List.mem_cons_of_mem _ hx), List.reverse_cons, List.append_assoc]
      · rfl
      · exact fun heq => hdot (heq ▸ List.mem_cons_self)
      · rintro (heq | heq)
        · exact (plain_chars hs).1 heq
        · exact hdot (heq ▸ List.mem_cons_self)
  unfold cleanElems
  rw [List.foldl_cons, if_pos (.inl rfl), hfold, List.append_nil, List.reverse_reverse]

end PathLemmas

open PathLemmas

theorem decodes_plainPath {names : List String} (h : ∀ s ∈ names, isPlain s = true) :
    Decodes (plainPath names) := fun hmem => by
  have hnot : '%' ∉ ['/'].intercalate (names.map String.toList) := by
    refine not_mem_intercalate (by decide) fun l hl => ?_
    obtain ⟨s, hs, rfl⟩ := List.mem_map.mp hl
    exact not_mem_plain (h s hs) (by decide) (by decide)
  rw [plainPath, String.toList_ofList, List.mem_cons] at hmem
  exact absurd hmem (not_or.mpr ⟨by decide, hnot⟩)

theorem pathSegments_plainPath {names : List String} (h : ∀ s ∈ names, isPlain s = true)
    (hne : names ≠ []) : pathSegments (plainPath names) = names := by
  obtain ⟨ns, n, hns⟩ := (List.eq_nil_or_concat names).resolve_left hne
  rw [List.concat_eq_append] at hns
  subst hns
  have hn : isPlain n = true := h n (by simp)
  obtain ⟨c, cs, hcs⟩ := List.exists_cons_of_ne_nil (plain_chars hn).1
  have hlast : pathUnescape (String.ofList (c :: cs)) = n := by
    rw [← hcs, String.ofList_toList, pathUnescape_plain hn]
  have hrest : (ns.map String.toList).map (fun s => pathUnescape (String.ofList s)) = ns := by
    rw [List.map_map]
    refine (List.map_congr_left fun s hs => ?_).trans (List.map_id ns)
    rw [Function.comp_apply, String.ofList_toList]
    exact pathUnescape_plain (h s (List.mem_append_left _ hs))
  unfold pathSegments plainPath
  rw [String.toList_ofList]
  dsimp only
  rw [splitOn_plain h hne, List.map_append, List.map_singleton, List.dropLast_concat,
    List.getLast?_concat, hrest, hcs]
  exact congrArg (fun s => ns ++ [s]) hlast

theorem cleanPath_plainPath {names : List String} (h : ∀ s ∈ names, isPlain s = true)
    (hne : names ≠ []) : cleanPath (plainPath names) = plainPath names := by
  have hmap : names.map String.toList ≠ [] := fun hnil => hne (List.map_eq_nil_iff.mp hnil)
  have hcons : '/' :: ['/'].intercalate (names.map String.toList) =
      ['/'].intercalate ([] :: names.map String.toList) := by
    rw [List.intercalate_cons_of_ne_nil hmap]
    rfl
  have hsplit : List.splitOn '/' (plainPath names).toList = [] :: names.map String.toList := by
    rw [plainPath, String.toList_ofList, hcons]
    refine List.splitOn_intercalate _ (fun l hl => ?_) (List.cons_ne_nil _ _)
    rcases List.mem_cons.mp hl with rfl | hl
    · exact List.not_mem_nil
    · obtain ⟨s, hs, rfl⟩ := List.mem_map.mp hl
      exact not_mem_plain (h s hs) (by decide) (by decide)
  have hlast : (plainPath names).toList.getLast? ≠ some '/' := by
    obtain ⟨ns, n, hns⟩ := (List.eq_nil_or_concat names).resolve_left hne
    rw [List.concat_eq_append] at hns
    subst hns
    have hn : isPlain n = true := h n (by simp)
    rw [plainPath, String.toList_ofList, hcons, List.map_append, List.map_singleton,
      ← List.cons_append, getLast?_intercalate (plain_chars hn).1]
    exact fun heq => not_mem_plain hn (by decide) (by decide) (List.mem_of_getLast? heq)
  unfold cleanPath
  dsimp only
  rw [hsplit, cleanElems_plain h, if_neg (fun hboth => hlast hboth.1), List.append_nil]
  rfl

end Http
