import Mathlib.Data.List.Lex
import AssetTracker.Lib.Binary
import AssetTracker.Lib.Time

/-!
# The order of time texts

Texts of UTC instants are often sorted as strings, in the belief that this sorts the
instants. For the formats of `AssetTracker.Lib.Time` it does as far as the seconds:
every field has a fixed width. The fraction has not, and what follows it, a `Z`, is
above the digits.

Results:
1. `below_iff_natOfDigits`: digits of one width are ordered like the numbers.
2. `ofDays_lt`: dates are ordered like the days they stand for.
3. `secondsText_below`: texts up to the seconds are ordered like the seconds.
4. `pointed_below_iff`: texts within one second are in the wrong order exactly when
   the fraction of the earlier one is a prefix of the other.
-/

namespace Encoding

open JsonLemmas

/-! ## 1. Digits -/

/-- The order of texts, by code points. -/
def Below (cs ds : List Char) : Prop := List.Lex (fun c d : Char => c.toNat < d.toNat) cs ds

theorem below_cons {c d : Char} {cs ds : List Char} :
    Below (c :: cs) (d :: ds) ↔ c.toNat < d.toNat ∨ c = d ∧ Below cs ds :=
  List.cons_lex_cons_iff

theorem below_cons_self {c : Char} {cs ds : List Char} :
    Below (c :: cs) (c :: ds) ↔ Below cs ds := by
  simp [below_cons]

theorem below_irrefl (cs : List Char) : ¬ Below cs cs :=
  List.lex_irrefl (fun c : Char => Nat.lt_irrefl c.toNat) cs

theorem not_below_nil {cs : List Char} : ¬ Below cs [] := List.not_lex_nil

theorem below_asymm {cs ds : List Char} (h : Below cs ds) : ¬ Below ds cs := by
  induction cs generalizing ds with
  | nil => exact not_below_nil
  | cons c cs ih =>
    cases ds with
    | nil => exact absurd h not_below_nil
    | cons d ds =>
      rw [below_cons] at h ⊢
      rintro (hlt | ⟨rfl, hback⟩)
      · rcases h with h | ⟨rfl, -⟩
        · exact Nat.lt_asymm h hlt
        · exact Nat.lt_irrefl _ hlt
      · rcases h with h | ⟨-, h⟩
        · exact Nat.lt_irrefl _ h
        · exact ih h hback

theorem below_trichotomy (cs ds : List Char) : Below cs ds ∨ cs = ds ∨ Below ds cs := by
  induction cs generalizing ds with
  | nil =>
    cases ds with
    | nil => exact .inr (.inl rfl)
    | cons d ds => exact .inl List.Lex.nil
  | cons c cs ih =>
    cases ds with
    | nil => exact .inr (.inr List.Lex.nil)
    | cons d ds =>
      rw [below_cons, below_cons]
      rcases Nat.lt_trichotomy c.toNat d.toNat with h | h | h
      · exact .inl (.inl h)
      · obtain rfl : c = d := Char.toNat_inj.mp h
        rcases ih ds with h | rfl | h
        · exact .inl (.inr ⟨rfl, h⟩)
        · exact .inr (.inl rfl)
        · exact .inr (.inr (.inr ⟨rfl, h⟩))
      · exact .inr (.inr (.inl h))

/-- What follows texts of one length does not change their order. -/
theorem Below.append {cs ds : List Char} (h : Below cs ds) (hlen : cs.length = ds.length)
    (s t : List Char) : Below (cs ++ s) (ds ++ t) := by
  induction cs generalizing ds with
  | nil =>
    cases List.eq_nil_of_length_eq_zero hlen.symm
    exact absurd h not_below_nil
  | cons c cs ih =>
    cases ds with
    | nil => cases hlen
    | cons d ds =>
      refine below_cons.mpr ((below_cons.mp h).imp_right fun ⟨hcd, h⟩ => ⟨hcd, ?_⟩)
      exact ih h (Nat.succ.inj hlen)

theorem below_append_left {cs s t : List Char} : Below (cs ++ s) (cs ++ t) ↔ Below s t := by
  induction cs with
  | nil => rfl
  | cons c cs ih => exact below_cons_self.trans ih

theorem isDigit_bounds {c : Char} (h : isDigit c = true) : 0x30 ≤ c.toNat ∧ c.toNat ≤ 0x39 := by
  simpa [isDigit] using h

theorem tenPow_succ (n : Nat) : Nat.pow 10 (n + 1) = 10 * Nat.pow 10 n := Nat.pow_succ'

theorem foldl_digits (cs : List Char) (n : Nat) :
    cs.foldl (fun n c => n * 10 + (c.toNat - 0x30)) n =
      n * Nat.pow 10 cs.length + natOfDigits cs := by
  induction cs generalizing n with
  | nil => simp [natOfDigits]
  | cons c cs ih =>
    have hzero := ih (0 * 10 + (c.toNat - 0x30))
    rw [natOfDigits, List.foldl_cons, List.foldl_cons, ih, hzero, List.length_cons, tenPow_succ,
      Nat.zero_mul, Nat.zero_add, Nat.add_mul, Nat.mul_assoc, Nat.add_assoc]

theorem natOfDigits_cons (c : Char) (cs : List Char) :
    natOfDigits (c :: cs) = (c.toNat - 0x30) * Nat.pow 10 cs.length + natOfDigits cs := by
  have h := foldl_digits cs (0 * 10 + (c.toNat - 0x30))
  rw [Nat.zero_mul, Nat.zero_add] at h
  rw [← h, natOfDigits, List.foldl_cons, Nat.zero_mul, Nat.zero_add]

theorem natOfDigits_lt {cs : List Char} (h : ∀ c ∈ cs, isDigit c = true) :
    natOfDigits cs < Nat.pow 10 cs.length := by
  induction cs with
  | nil => exact Nat.one_pos
  | cons c cs ih =>
    have hc := isDigit_bounds (h c List.mem_cons_self)
    have hcs := ih fun d hd => h d (List.mem_cons_of_mem _ hd)
    rw [natOfDigits_cons, List.length_cons, tenPow_succ]
    calc (c.toNat - 0x30) * Nat.pow 10 cs.length + natOfDigits cs
        < (c.toNat - 0x30) * Nat.pow 10 cs.length + Nat.pow 10 cs.length :=
          Nat.add_lt_add_left hcs _
      _ = (c.toNat - 0x30 + 1) * Nat.pow 10 cs.length := (Nat.succ_mul _ _).symm
      _ ≤ 10 * Nat.pow 10 cs.length := Nat.mul_le_mul_right _ (by omega)

theorem natOfDigits_lt_of_below {cs ds : List Char} (hcs : ∀ c ∈ cs, isDigit c = true)
    (hds : ∀ c ∈ ds, isDigit c = true) (hlen : cs.length = ds.length) (h : Below cs ds) :
    natOfDigits cs < natOfDigits ds := by
  induction cs generalizing ds with
  | nil =>
    cases List.eq_nil_of_length_eq_zero hlen.symm
    exact absurd h not_below_nil
  | cons c cs ih =>
    cases ds with
    | nil => cases hlen
    | cons d ds =>
      have hlen' : cs.length = ds.length := Nat.succ.inj hlen
      have hcs' : ∀ c ∈ cs, isDigit c = true := fun e he => hcs e (List.mem_cons_of_mem _ he)
      rw [natOfDigits_cons, natOfDigits_cons, ← hlen']
      rcases below_cons.mp h with hlt | ⟨rfl, hrest⟩
      · have hc := isDigit_bounds (hcs c List.mem_cons_self)
        calc (c.toNat - 0x30) * Nat.pow 10 cs.length + natOfDigits cs
            < (c.toNat - 0x30) * Nat.pow 10 cs.length + Nat.pow 10 cs.length :=
              Nat.add_lt_add_left (natOfDigits_lt hcs') _
          _ = (c.toNat - 0x30 + 1) * Nat.pow 10 cs.length := (Nat.succ_mul _ _).symm
          _ ≤ (d.toNat - 0x30) * Nat.pow 10 cs.length := Nat.mul_le_mul_right _ (by omega)
          _ ≤ _ := Nat.le_add_right _ _
      · exact Nat.add_lt_add_left
          (ih hcs' (fun e he => hds e (List.mem_cons_of_mem _ he)) hlen' hrest) _

/-- Digits of one width are ordered like the numbers. -/
theorem below_iff_natOfDigits {cs ds : List Char} (hcs : ∀ c ∈ cs, isDigit c = true)
    (hds : ∀ c ∈ ds, isDigit c = true) (hlen : cs.length = ds.length) :
    Below cs ds ↔ natOfDigits cs < natOfDigits ds := by
  refine ⟨natOfDigits_lt_of_below hcs hds hlen, fun hlt => ?_⟩
  rcases below_trichotomy cs ds with h | rfl | h
  · exact h
  · exact absurd hlt (Nat.lt_irrefl _)
  · exact absurd hlt (Nat.lt_asymm (natOfDigits_lt_of_below hds hcs hlen.symm h))

theorem natOfDigits_zeros (k : Nat) (cs : List Char) :
    natOfDigits (List.replicate k '0' ++ cs) = natOfDigits cs := by
  induction k with
  | zero => rfl
  | succ k ih =>
    rw [List.replicate_succ, List.cons_append, natOfDigits_cons, ih]
    show 0 * _ + _ = _
    rw [Nat.zero_mul, Nat.zero_add]

theorem natOfDigits_padded (w n : Nat) : natOfDigits (padded w n) = n := by
  rw [padded, natOfDigits_zeros]
  exact natOfDigits_toDigits n

theorem padded_digits {w n : Nat} : ∀ c ∈ padded w n, isDigit c = true := by
  intro c hc
  rcases List.mem_append.mp hc with hc | hc
  · rw [List.eq_of_mem_replicate hc]
    rfl
  · exact isDigit_of_mem hc

theorem length_padded {w n : Nat} (hw : 0 < w) (h : n < Nat.pow 10 w) : (padded w n).length = w := by
  have hle : (digitsOf n).length ≤ w := (Nat.length_toDigits_le_iff (by decide) hw).mpr h
  rw [padded, List.length_append, List.length_replicate, Nat.sub_add_cancel hle]

/-- A field of fixed width decides, whatever follows. -/
theorem padded_below {w a b : Nat} (hw : 0 < w) (hab : a < b) (hb : b < Nat.pow 10 w)
    (s t : List Char) : Below (padded w a ++ s) (padded w b ++ t) := by
  have hlen : (padded w a).length = (padded w b).length := by
    rw [length_padded hw (hab.trans hb), length_padded hw hb]
  refine Below.append ((below_iff_natOfDigits padded_digits padded_digits hlen).mpr ?_) hlen s t
  rwa [natOfDigits_padded, natOfDigits_padded]

/-! ## 2. Dates -/

/-- The year of an era of 400 years, by the day of the era. -/
def yearOfEra (day : Int) : Int := (day - day / 1460 + day / 36524 - day / 146096) / 365

/-- The first day of a year of an era. -/
def yearStart (year : Int) : Int := 365 * year + year / 4 - year / 100

theorem yearOfEra_mono {day day' : Int} (h : day ≤ day') : yearOfEra day ≤ yearOfEra day' := by
  have hstep (day : Int) : yearOfEra day ≤ yearOfEra (day + 1) := by
    refine Int.ediv_le_ediv (by decide) ?_
    omega
  obtain ⟨n, rfl⟩ := Int.le.dest h
  clear h
  induction n with
  | zero => simp
  | succ n ih =>
    have hnext := hstep (day + n)
    rw [Int.add_assoc] at hnext
    exact Int.le_trans ih hnext

/-- The year changes on its first day. -/
def startsRight (year : Nat) : Bool :=
  yearOfEra (yearStart year) == year && (year == 0 || yearOfEra (yearStart year - 1) == year - 1)

theorem startsRight_all : (List.range 400).all startsRight = true := by decide +kernel

theorem yearOfEra_start {year : Int} (h₀ : 0 ≤ year) (h : year < 400) :
    yearOfEra (yearStart year) = year ∧ (0 < year → yearOfEra (yearStart year - 1) = year - 1) := by
  have hmem : year.toNat ∈ List.range 400 := List.mem_range.mpr (by omega)
  have hright := List.all_eq_true.mp startsRight_all _ hmem
  rw [startsRight, Int.toNat_of_nonneg h₀] at hright
  simp only [Bool.and_eq_true, Bool.or_eq_true, beq_iff_eq] at hright
  exact ⟨hright.1, fun hpos => hright.2.resolve_left (by omega)⟩

/-- A day of an era lies in its year. -/
theorem yearOfEra_spec {day : Int} (h₀ : 0 ≤ day) (h : day < 146097) :
    0 ≤ yearOfEra day ∧ yearOfEra day ≤ 399 ∧ yearStart (yearOfEra day) ≤ day ∧
      day ≤ yearStart (yearOfEra day) + 366 := by
  have hlow : 0 ≤ yearOfEra day := yearOfEra_mono h₀
  have hhigh : yearOfEra day ≤ 399 := yearOfEra_mono (show day ≤ 146096 by omega)
  refine ⟨hlow, hhigh, ?_, ?_⟩
  · by_contra hlt
    -- the day before the first of the year is in the year before
    have hpos : 0 < yearOfEra day := by
      by_contra hzero
      have hyear : yearOfEra day = 0 := by omega
      rw [hyear] at hlt
      exact hlt h₀
    have hprev := (yearOfEra_start hlow (by omega)).2 hpos
    have hle := yearOfEra_mono (show day ≤ yearStart (yearOfEra day) - 1 by omega)
    omega
  · by_contra hlt
    unfold yearStart at hlt
    by_cases hlast : yearOfEra day = 399
    · rw [hlast] at hlt
      omega
    · have hnext := (yearOfEra_start (show 0 ≤ yearOfEra day + 1 by omega) (by omega)).1
      have hstart : yearStart (yearOfEra day + 1) ≤ day := by
        unfold yearStart
        omega
      have hle := yearOfEra_mono hstart
      omega

/-- The order of dates. -/
def Date.Before (d d' : Date) : Prop :=
  d.year < d'.year ∨ d.year = d'.year ∧
    (d.month < d'.month ∨ d.month = d'.month ∧ d.day < d'.day)

/-- The date of a day in month `m` of a year that is counted from March. -/
def Date.ofMarch (year m day : Int) : Date :=
  let month := if m < 10 then m + 3 else m - 9
  { year := year + if month ≤ 2 then 1 else 0
    month := month
    day := day }

theorem ofMarch_before {y y' m m' d d' : Int} (hm : 0 ≤ m ∧ m ≤ 11) (hm' : 0 ≤ m' ∧ m' ≤ 11)
    (h : y < y' ∨ y = y' ∧ (m < m' ∨ m = m' ∧ d < d')) :
    (Date.ofMarch y m d).Before (Date.ofMarch y' m' d') := by
  unfold Date.ofMarch Date.Before
  dsimp only
  split <;> split <;> split <;> split <;> omega

/-- The month from March on, by the day of the year. -/
def monthOf (dayOfYear : Int) : Int := (5 * dayOfYear + 2) / 153

theorem ofDays_eq (days : Int) : Date.ofDays days =
    let z := days + 719468
    let year := yearOfEra (z % 146097)
    let dayOfYear := z % 146097 - yearStart year
    .ofMarch (year + z / 146097 * 400) (monthOf dayOfYear)
      (dayOfYear - (153 * monthOf dayOfYear + 2) / 5 + 1) := rfl

/-- A later day has a later date. -/
theorem ofDays_lt {days days' : Int} (h : days < days') :
    (Date.ofDays days).Before (Date.ofDays days') := by
  rw [ofDays_eq, ofDays_eq]
  dsimp only
  have hspec (z : Int) := yearOfEra_spec (Int.emod_nonneg z (by decide : (146097 : Int) ≠ 0))
    (Int.emod_lt_of_pos z (by decide))
  obtain ⟨hy₀, hy, hs, hs'⟩ := hspec (days + 719468)
  obtain ⟨hz₀, hz, ht, ht'⟩ := hspec (days' + 719468)
  have hmono : (days + 719468) / 146097 = (days' + 719468) / 146097 →
      yearOfEra ((days + 719468) % 146097) ≤ yearOfEra ((days' + 719468) % 146097) :=
    fun hera => yearOfEra_mono (by omega)
  generalize hY : yearOfEra ((days + 719468) % 146097) = y at *
  generalize hY' : yearOfEra ((days' + 719468) % 146097) = y' at *
  refine ofMarch_before (by unfold monthOf; omega) (by unfold monthOf; omega) ?_
  unfold monthOf
  by_cases hera : (days + 719468) / 146097 = (days' + 719468) / 146097
  · have hle := hmono hera
    rcases Int.lt_or_eq_of_le hle with hlt | rfl
    · exact .inl (by omega)
    · refine .inr ⟨by omega, ?_⟩
      omega
  · exact .inl (by omega)

theorem ofDays_bounds (days : Int) :
    0 < (Date.ofDays days).month ∧ (Date.ofDays days).month ≤ 12 ∧
      0 < (Date.ofDays days).day ∧ (Date.ofDays days).day ≤ 31 := by
  rw [ofDays_eq]
  obtain ⟨-, -, hs, hs'⟩ := yearOfEra_spec
    (Int.emod_nonneg (days + 719468) (by decide : (146097 : Int) ≠ 0))
    (Int.emod_lt_of_pos (days + 719468) (by decide))
  unfold Date.ofMarch monthOf
  dsimp only
  split <;> omega

/-! ## 3. Seconds -/

/-- The year of the second `s` has four digits. -/
def InYears (s : Int) : Prop :=
  0 ≤ (Date.ofDays (s / secondsPerDay)).year ∧ (Date.ofDays (s / secondsPerDay)).year ≤ 9999

/-- The text of an instant up to the seconds. -/
def secondsText (s : Int) : List Char :=
  dateText (Date.ofDays (s / secondsPerDay)) ++ 'T' :: clockText (s % secondsPerDay)

theorem appendInt_nonneg {w : Nat} {x : Int} (h : 0 ≤ x) : appendInt w x = padded w x.natAbs := by
  rw [appendInt, if_neg (Int.not_lt.mpr h)]

/-- A field decides, whatever follows. -/
theorem field_below {w : Nat} {a b : Int} (hw : 0 < w) (ha : 0 ≤ a) (hab : a < b)
    (hb : b.natAbs < Nat.pow 10 w) (s t : List Char) :
    Below (appendInt w a ++ s) (appendInt w b ++ t) := by
  rw [appendInt_nonneg ha, appendInt_nonneg (Int.le_of_lt (Int.lt_of_le_of_lt ha hab))]
  exact padded_below hw (by omega) hb s t

/-- Fields before which the texts are equal do not decide. -/
theorem field_skip {w : Nat} {a b : Int} (hab : a = b) {c : Char} {s t : List Char}
    (h : Below s t) : Below (appendInt w a ++ c :: s) (appendInt w b ++ c :: t) := by
  rw [hab]
  exact below_append_left.mpr (below_cons_self.mpr h)

theorem dateText_below {d d' : Date} (h : d.Before d') (hy : 0 ≤ d.year) (hy' : d'.year ≤ 9999)
    (hm : 0 < d.month ∧ d'.month ≤ 12) (hd : 0 < d.day ∧ d'.day ≤ 31) (s t : List Char) :
    Below (dateText d ++ s) (dateText d' ++ t) := by
  unfold dateText
  simp only [List.append_assoc, List.cons_append]
  rcases h with h | ⟨hyear, h | ⟨hmonth, h⟩⟩
  · exact field_below (by decide) hy h (show _ < 10000 by omega) _ _
  · exact field_skip hyear
      (field_below (by decide) (Int.le_of_lt hm.1) h (show _ < 100 by omega) _ _)
  · exact field_skip hyear (field_skip hmonth
      (field_below (by decide) (Int.le_of_lt hd.1) h (show _ < 100 by omega) _ _))

theorem clockText_below {s s' : Int} (h₀ : 0 ≤ s) (h : s < s') (h' : s' < secondsPerDay)
    (t t' : List Char) : Below (clockText s ++ t) (clockText s' ++ t') := by
  unfold secondsPerDay at h'
  unfold clockText
  simp only [List.append_assoc, List.cons_append]
  by_cases hhour : s / 3600 = s' / 3600
  · by_cases hminute : s / 60 % 60 = s' / 60 % 60
    · exact field_skip hhour (field_skip hminute
        (field_below (by decide) (by omega) (by omega) (show _ < 100 by omega) _ _))
    · exact field_skip hhour
        (field_below (by decide) (by omega) (by omega) (show _ < 100 by omega) _ _)
  · exact field_below (by decide) (by omega) (by omega) (show _ < 100 by omega) _ _

/-- An earlier second has a smaller text, whatever follows. -/
theorem secondsText_below {s s' : Int} (h : s < s') (hs : InYears s) (hs' : InYears s')
    (t t' : List Char) : Below (secondsText s ++ t) (secondsText s' ++ t') := by
  unfold secondsText
  rw [List.append_assoc, List.append_assoc, List.cons_append, List.cons_append]
  by_cases hday : s / secondsPerDay = s' / secondsPerDay
  · rw [hday]
    refine below_append_left.mpr (below_cons_self.mpr ?_)
    unfold secondsPerDay at hday ⊢
    exact clockText_below (by omega) (by omega) (by unfold secondsPerDay; omega) t t'
  · have hlt : s / secondsPerDay < s' / secondsPerDay := by
      unfold secondsPerDay at hday ⊢
      omega
    have hbounds := ofDays_bounds (s / secondsPerDay)
    have hbounds' := ofDays_bounds (s' / secondsPerDay)
    exact dateText_below (ofDays_lt hlt) hs.1 hs'.2 ⟨hbounds.1, hbounds'.2.1⟩
      ⟨hbounds.2.2.1, hbounds'.2.2.2⟩ _ _

/-! ## 4. Fractions -/

/-- A fraction of a second, with a point before it unless it is empty. -/
def pointed (ds : List Char) : List Char := if ds = [] then [] else '.' :: ds

/-- The digits of the fraction stand for this many nanoseconds. -/
structure Spells (ds : List Char) (nanos : Nat) : Prop where
  length : ds.length ≤ 9
  digits : ∀ c ∈ ds, isDigit c = true
  value : natOfDigits (ds ++ List.replicate (9 - ds.length) '0') = nanos

theorem natOfDigits_replicate (k : Nat) : natOfDigits (List.replicate k '0') = 0 := by
  have h := natOfDigits_zeros k []
  rwa [List.append_nil] at h

theorem digits_append_zeros {ds : List Char} (h : ∀ c ∈ ds, isDigit c = true) (k : Nat) :
    ∀ c ∈ ds ++ List.replicate k '0', isDigit c = true := by
  intro c hc
  rcases List.mem_append.mp hc with hc | hc
  · exact h c hc
  · rw [List.eq_of_mem_replicate hc]
    rfl

theorem digit_below_Z {c : Char} (h : isDigit c = true) (cs : List Char) : Below (c :: cs) ['Z'] :=
  below_cons.mpr (.inl (Nat.lt_of_le_of_lt (isDigit_bounds h).2 (by decide)))

/-- Fractions, filled with zeros to one width, against the same fractions followed by `Z`.
Where one goes on after the end of the other, `Z` stands against a digit. -/
theorem digits_below_iff {ds ds' : List Char} {k k' : Nat} (hds : ∀ c ∈ ds, isDigit c = true)
    (hds' : ∀ c ∈ ds', isDigit c = true) (hlen : ds.length + k = ds'.length + k')
    (h : Below (ds ++ List.replicate k '0') (ds' ++ List.replicate k' '0')) :
    Below (ds' ++ ['Z']) (ds ++ ['Z']) ↔ ds <+: ds' := by
  induction ds generalizing ds' with
  | nil =>
    cases ds' with
    | nil =>
      obtain rfl : k = k' := by simpa using hlen
      exact absurd h (below_irrefl _)
    | cons c cs =>
      exact ⟨fun _ => List.nil_prefix, fun _ => digit_below_Z (hds' c List.mem_cons_self) _⟩
  | cons c cs ih =>
    cases ds' with
    | nil =>
      rw [below_iff_natOfDigits (digits_append_zeros hds k) (digits_append_zeros hds' k')
        (by simpa only [List.length_append, List.length_replicate] using hlen), List.nil_append,
        natOfDigits_replicate] at h
      exact absurd h (Nat.not_lt_zero _)
    | cons d cs' =>
      simp only [List.cons_append] at h ⊢
      rw [List.cons_prefix_cons]
      rcases below_cons.mp h with hlt | ⟨rfl, hrest⟩
      · rw [below_cons]
        constructor
        · rintro (hgt | ⟨rfl, -⟩)
          · exact absurd hlt (Nat.lt_asymm hgt)
          · exact absurd hlt (Nat.lt_irrefl _)
        · rintro ⟨rfl, -⟩
          exact absurd hlt (Nat.lt_irrefl _)
      · have hiff := ih (fun e he => hds e (List.mem_cons_of_mem _ he))
          (fun e he => hds' e (List.mem_cons_of_mem _ he))
          (by simp only [List.length_cons] at hlen; omega) hrest
        rw [below_cons_self, hiff]
        exact ⟨fun hp => ⟨rfl, hp⟩, And.right⟩

/-- Within one second the text of the earlier fraction is the larger one exactly when it
is a prefix of the other. -/
theorem pointed_below_iff {ds ds' : List Char} {n n' : Nat} (hs : Spells ds n)
    (hs' : Spells ds' n') (h : n < n') :
    Below (pointed ds' ++ ['Z']) (pointed ds ++ ['Z']) ↔ ds <+: ds' := by
  have hlen : ds.length + (9 - ds.length) = ds'.length + (9 - ds'.length) := by
    rw [Nat.add_sub_cancel' hs.length, Nat.add_sub_cancel' hs'.length]
  have hbelow : Below (ds ++ List.replicate (9 - ds.length) '0')
      (ds' ++ List.replicate (9 - ds'.length) '0') := by
    rw [below_iff_natOfDigits (digits_append_zeros hs.digits _) (digits_append_zeros hs'.digits _)
      (by simpa using hlen), hs.value, hs'.value]
    exact h
  have hne : ds' ≠ [] := by
    rintro rfl
    have hzero := hs'.value
    rw [List.nil_append, natOfDigits_replicate] at hzero
    exact Nat.not_lt_zero n (hzero ▸ h)
  rw [pointed, pointed, if_neg hne]
  by_cases hnil : ds = []
  · rw [if_pos hnil, hnil]
    exact ⟨fun _ => List.nil_prefix, fun _ => below_cons.mpr (.inl (by decide))⟩
  · rw [if_neg hnil, List.cons_append, List.cons_append, below_cons_self]
    exact digits_below_iff hs.digits hs'.digits hlen hbelow

/-! ## 5. The formats -/

/-- A UTC instant with the fraction digits it is written with. -/
structure Written where
  seconds : Int
  nanos : Nat
  digits : List Char
  years : InYears seconds
  nanos_lt : nanos < 1000000000
  spells : Spells digits nanos

def Written.instant (w : Written) : Instant := w.seconds * nanosPerSecond + w.nanos

def Written.chars (w : Written) : List Char := secondsText w.seconds ++ (pointed w.digits ++ ['Z'])

/-- The text of the earlier one of two instants is the larger one exactly when both are in
one second and its fraction is a prefix of the other. -/
theorem Written.below_iff {w w' : Written} (h : w.instant < w'.instant) :
    Below w'.chars w.chars ↔ w.seconds = w'.seconds ∧ w.digits <+: w'.digits := by
  replace h : w.seconds * (1000000000 : Int) + w.nanos < w'.seconds * 1000000000 + w'.nanos := h
  have hn := w.nanos_lt
  have hn' := w'.nanos_lt
  unfold Written.chars
  by_cases hsec : w.seconds = w'.seconds
  · rw [hsec, below_append_left, pointed_below_iff w.spells w'.spells (by omega)]
    exact ⟨fun hp => ⟨rfl, hp⟩, And.right⟩
  · have hlt : w.seconds < w'.seconds := by omega
    refine ⟨fun hbelow => ?_, fun hsame => absurd hsame.1 hsec⟩
    exact absurd (secondsText_below hlt w.years w'.years _ _) (below_asymm hbelow)

theorem pointed_inj {ds ds' : List Char} (h : pointed ds = pointed ds') : ds = ds' := by
  unfold pointed at h
  split at h <;> split at h
  · next hds hds' => rw [hds, hds']
  · cases h
  · cases h
  · exact (List.cons.inj h).2

theorem Written.below_of_seconds {w w' : Written} (h : w.seconds < w'.seconds) :
    Below w.chars w'.chars :=
  secondsText_below h w.years w'.years _ _

/-- Different instants have different texts. -/
theorem Written.chars_ne {w w' : Written} (h : w.instant < w'.instant) : w.chars ≠ w'.chars := by
  intro hchars
  have hnot : ¬ (w.seconds = w'.seconds ∧ w.digits <+: w'.digits) := fun hsame =>
    below_irrefl w.chars (by simpa only [← hchars] using (Written.below_iff h).mpr hsame)
  have hsec : w.seconds = w'.seconds := by
    rcases Int.lt_trichotomy w.seconds w'.seconds with hlt | heq | hlt
    · exact absurd (hchars ▸ Written.below_of_seconds hlt) (below_irrefl _)
    · exact heq
    · exact absurd (hchars ▸ Written.below_of_seconds hlt) (below_irrefl _)
  unfold Written.chars at hchars
  rw [hsec, List.append_cancel_left_eq, List.append_cancel_right_eq] at hchars
  exact hnot ⟨hsec, pointed_inj hchars ▸ List.prefix_refl _⟩

theorem natOfDigits_append (cs ds : List Char) :
    natOfDigits (cs ++ ds) = natOfDigits cs * Nat.pow 10 ds.length + natOfDigits ds := by
  rw [natOfDigits, List.foldl_append]
  exact foldl_digits ds _

/-- The digits without trailing zeros. -/
def trimmedDigits (nanos : Nat) : List Char :=
  ((padded 9 nanos).reverse.dropWhile (· == '0')).reverse

theorem padded_eq_trimmed (nanos : Nat) :
    ∃ k, padded 9 nanos = trimmedDigits nanos ++ List.replicate k '0' := by
  have hsplit : padded 9 nanos =
      trimmedDigits nanos ++ ((padded 9 nanos).reverse.takeWhile (· == '0')).reverse := by
    rw [trimmedDigits, ← List.reverse_append, List.takeWhile_append_dropWhile, List.reverse_reverse]
  have hzeros := List.eq_replicate_of_mem (a := '0')
    (l := ((padded 9 nanos).reverse.takeWhile (· == '0')).reverse)
    fun c hc => by simpa using List.mem_takeWhile_imp (List.mem_reverse.mp hc)
  exact ⟨_, hsplit.trans (congrArg (trimmedDigits nanos ++ ·) hzeros)⟩

theorem spells_trimmed {nanos : Nat} (h : nanos < 1000000000) :
    Spells (trimmedDigits nanos) nanos := by
  obtain ⟨k, hk⟩ := padded_eq_trimmed nanos
  have hlen := length_padded (w := 9) (by decide) (show nanos < Nat.pow 10 9 from h)
  rw [hk, List.length_append, List.length_replicate] at hlen
  refine ⟨by omega, fun c hc => ?_, ?_⟩
  · exact padded_digits (w := 9) (n := nanos) c (hk ▸ List.mem_append_left _ hc)
  · rw [show 9 - (trimmedDigits nanos).length = k by omega, ← hk, natOfDigits_padded]

theorem spells_millis {ms : Nat} (h : ms < 1000) : Spells (padded 3 ms) (ms * 1000000) := by
  have hlen := length_padded (w := 3) (by decide) (show ms < Nat.pow 10 3 from h)
  refine ⟨by omega, padded_digits, ?_⟩
  have hpow : Nat.pow 10 (9 - 3) = 1000000 := rfl
  rw [natOfDigits_append, natOfDigits_padded, natOfDigits_replicate, hlen, List.length_replicate,
    hpow, Nat.add_zero]

theorem fraction_lt (t : Instant) : (t % nanosPerSecond).toNat < 1000000000 := by
  unfold nanosPerSecond
  omega

/-- As `formatRFC3339Nano` writes it. -/
def Written.rfc3339 (t : Instant) (h : InYears (unixSeconds t)) : Written where
  seconds := unixSeconds t
  nanos := (t % nanosPerSecond).toNat
  digits := trimmedDigits (t % nanosPerSecond).toNat
  years := h
  nanos_lt := fraction_lt t
  spells := spells_trimmed (fraction_lt t)

theorem millis_lt (t : Instant) : (t % nanosPerSecond).toNat / 1000000 < 1000 := by
  have h := fraction_lt t
  omega

theorem millis_nanos_lt (t : Instant) :
    (t % nanosPerSecond).toNat / 1000000 * 1000000 < 1000000000 := by
  have h := millis_lt t
  omega

/-- As `toISOString` writes it: the instant to the millisecond. -/
def Written.iso (t : Instant) (h : InYears (unixSeconds t)) : Written where
  seconds := unixSeconds t
  nanos := (t % nanosPerSecond).toNat / 1000000 * 1000000
  digits := padded 3 ((t % nanosPerSecond).toNat / 1000000)
  years := h
  nanos_lt := millis_nanos_lt t
  spells := spells_millis (millis_lt t)

theorem fractionText_eq {nanos : Nat} (h : nanos < 1000000000) :
    fractionText nanos = pointed (trimmedDigits nanos) := by
  unfold fractionText pointed
  by_cases hzero : nanos = 0
  · subst hzero
    decide
  · have hne : trimmedDigits nanos ≠ [] := fun hnil => by
      have hvalue := (spells_trimmed h).value
      rw [hnil, List.nil_append, natOfDigits_replicate] at hvalue
      exact hzero hvalue.symm
    rw [if_neg hzero, if_neg hne]
    rfl

theorem formatRFC3339Nano_utc (t : Instant) (h : InYears (unixSeconds t)) :
    formatRFC3339Nano (.utc t) = String.ofList (Written.rfc3339 t h).chars := by
  unfold formatRFC3339Nano Written.chars Written.rfc3339 secondsText ZonedTime.utc zoneText
  simp [fractionText_eq (fraction_lt t)]

theorem toISOString_eq (t : Instant) (h : InYears (unixSeconds t)) :
    toISOString t = String.ofList (Written.iso t h).chars := by
  have hbounds := ofDays_bounds (unixSeconds t / secondsPerDay)
  have hne : padded 3 ((t % nanosPerSecond).toNat / 1000000) ≠ [] :=
    List.ne_nil_of_length_pos (by rw [length_padded (by decide) (millis_lt t)]; decide)
  have hyears : 0 ≤ (Date.ofDays (unixSeconds t / secondsPerDay)).year ∧
      (Date.ofDays (unixSeconds t / secondsPerDay)).year ≤ 9999 := h
  unfold toISOString Written.chars Written.iso secondsText dateText isoYear
  dsimp only
  rw [if_pos hyears, appendInt_nonneg h.1,
    appendInt_nonneg (Int.le_of_lt hbounds.1), appendInt_nonneg (Int.le_of_lt hbounds.2.2.1),
    pointed, if_neg hne]
  simp

/-! ## 6. Bytes -/

/-- The order of strings by the bytes of their UTF-8 encoding. -/
def BytesBelow (s t : String) : Prop :=
  List.Lex (fun a b : UInt8 => a.toNat < b.toNat) (Text.utf8 s) (Text.utf8 t)

theorem bytesBelow_irrefl (s : String) : ¬ BytesBelow s s :=
  List.lex_irrefl (fun b : UInt8 => Nat.lt_irrefl b.toNat) _

theorem utf8EncodeChar_ascii {c : Char} (h : c.toNat < 0x80) :
    String.utf8EncodeChar c = [UInt8.ofNat c.toNat] := by
  have hv : c.val.toNat ≤ 0x7f := Nat.le_of_lt_succ h
  unfold String.utf8EncodeChar
  rw [if_pos hv]
  rfl

theorem toNat_byte_ascii {c : Char} (h : c.toNat < 0x80) :
    (UInt8.ofNat c.toNat).toNat = c.toNat := by
  rw [UInt8.toNat_ofNat']
  exact Nat.mod_eq_of_lt (by omega)

/-- ASCII texts have the same order by bytes. -/
theorem bytesBelow_ascii {cs ds : List Char} (hcs : ∀ c ∈ cs, c.toNat < 0x80)
    (hds : ∀ c ∈ ds, c.toNat < 0x80) :
    BytesBelow (String.ofList cs) (String.ofList ds) ↔ Below cs ds := by
  unfold BytesBelow Text.utf8
  rw [String.toList_ofList, String.toList_ofList]
  induction cs generalizing ds with
  | nil =>
    cases ds with
    | nil => exact iff_of_false List.not_lex_nil not_below_nil
    | cons d ds =>
      rw [List.flatMap_cons, utf8EncodeChar_ascii (hds d List.mem_cons_self)]
      exact iff_of_true List.Lex.nil List.Lex.nil
  | cons c cs ih =>
    cases ds with
    | nil => exact iff_of_false List.not_lex_nil not_below_nil
    | cons d ds =>
      have hc := hcs c List.mem_cons_self
      have hd := hds d List.mem_cons_self
      have heq : UInt8.ofNat c.toNat = UInt8.ofNat d.toNat ↔ c = d := by
        rw [← UInt8.toNat_inj, toNat_byte_ascii hc, toNat_byte_ascii hd, Char.toNat_inj]
      have hrest := ih (fun e he => hcs e (List.mem_cons_of_mem _ he)) fun e he =>
        hds e (List.mem_cons_of_mem _ he)
      rw [List.flatMap_cons, List.flatMap_cons, utf8EncodeChar_ascii hc, utf8EncodeChar_ascii hd,
        List.singleton_append, List.singleton_append, List.cons_lex_cons_iff, below_cons, hrest, heq,
        toNat_byte_ascii hc, toNat_byte_ascii hd]

theorem digits_ascii {cs : List Char} (h : ∀ c ∈ cs, isDigit c = true) : cs.all isAscii = true :=
  List.all_eq_true.mpr fun c hc =>
    decide_eq_true (Nat.lt_of_le_of_lt (isDigit_bounds (h c hc)).2 (by decide))

theorem appendInt_ascii {w : Nat} {x : Int} : (appendInt w x).all isAscii = true := by
  unfold appendInt
  split
  · rw [List.all_cons, digits_ascii padded_digits]
    rfl
  · exact digits_ascii padded_digits

theorem pointed_ascii {ds : List Char} (h : ∀ c ∈ ds, isDigit c = true) :
    (pointed ds).all isAscii = true := by
  unfold pointed
  split
  · rfl
  · rw [List.all_cons, digits_ascii h]
    rfl

theorem Written.ascii (w : Written) : w.chars.all isAscii = true := by
  have hseparators : isAscii '-' = true ∧ isAscii 'T' = true ∧ isAscii ':' = true ∧
      isAscii 'Z' = true := by decide
  simp [Written.chars, secondsText, dateText, clockText, appendInt_ascii,
    pointed_ascii w.spells.digits, hseparators]

end Encoding
