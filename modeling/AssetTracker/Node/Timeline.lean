import AssetTracker.Lib.Chronology
import AssetTracker.Node.EventLog

/-!
# Timelines (Node service)

`findByDeviceId` sorts by the string `timestamp`. The strings come from two writers:
the Go publisher drops trailing zeros of the fraction, `createEvent` always writes
three digits. The driver compares bytes, and `Z` is above the digits and the point.

Results:
1. `stamp_below_iff`: when the text of an earlier instant is the larger one.
2. `chronological_iff`: a timeline is chronological exactly when no event of the
   device has, within one second, a fraction that is a prefix of a later event's.
-/

namespace AssetTracker.NodeService

open Encoding Text

/-! ## Timestamps -/

/-- Where the timestamp of an event comes from: the Go publisher, or the default of
`createEvent`. -/
inductive Stamp where
  | published (t : Instant)
  | logged (t : Instant)
deriving DecidableEq, Repr

def Stamp.text : Stamp → String
  | published t => formatRFC3339Nano (.utc t)
  | logged t => toISOString t

/-- The instant of the timestamp; a `Date` has milliseconds. -/
def Stamp.instant : Stamp → Instant
  | published t => t
  | logged t => t / 1000000 * 1000000

/-- The second of the timestamp. -/
def Stamp.second : Stamp → Int
  | published t => unixSeconds t
  | logged t => unixSeconds t

/-- The digits of the fraction, as they are written. -/
def Stamp.fraction : Stamp → List Char
  | published t => trimmedDigits (t % nanosPerSecond).toNat
  | logged t => padded 3 ((t % nanosPerSecond).toNat / 1000000)

/-- The event has this timestamp, of a year with four digits. -/
def Stamped (e : Event) (s : Stamp) : Prop :=
  InYears s.second ∧ e.timestamp = NodeService.text s.text

/-- The driver compares strings by their bytes, at least where all of them are ASCII. -/
def ByteOrder (sorter : Sorter) : Prop :=
  ∀ s t : String, s.toList.all isAscii = true → t.toList.all isAscii = true →
    (sorter.le (text s) (text t) ↔ ¬ BytesBelow t s)

/-- The newest instant first. -/
def Chronological (events : List Event) : Prop :=
  events.Pairwise fun a b => ∀ s t, Stamped a s → Stamped b t → ¬ s.instant < t.instant

/-- Both timestamps are in one second, and the fraction of the first is a prefix of the
other one. The first text then goes on with `Z`, which is above every digit and the dot. -/
def Overtakes (s t : Stamp) : Prop := s.second = t.second ∧ s.fraction <+: t.fraction

/-! ## 1. Texts -/

def Stamp.written : (s : Stamp) → InYears s.second → Written
  | published t, h => .rfc3339 t h
  | logged t, h => .iso t h

theorem unixSeconds_split (t : Int) :
    t / nanosPerSecond * nanosPerSecond + ((t % nanosPerSecond).toNat : Int) = t := by
  unfold nanosPerSecond
  omega

theorem millis_split (t : Int) :
    t / nanosPerSecond * nanosPerSecond +
        (((t % nanosPerSecond).toNat / 1000000 * 1000000 : Nat) : Int) =
      t / 1000000 * 1000000 := by
  unfold nanosPerSecond
  omega

theorem written_instant (s : Stamp) (h : InYears s.second) : (s.written h).instant = s.instant := by
  cases s with
  | published t => exact unixSeconds_split t
  | logged t => exact millis_split t

theorem written_text (s : Stamp) (h : InYears s.second) :
    s.text = String.ofList (s.written h).chars := by
  cases s with
  | published t => exact formatRFC3339Nano_utc t h
  | logged t => exact toISOString_eq t h

theorem stamp_ascii (s : Stamp) (h : InYears s.second) : s.text.toList.all isAscii = true := by
  rw [written_text s h, String.toList_ofList]
  exact Written.ascii _

theorem bytesBelow_written (s t : Stamp) (hs : InYears s.second) (ht : InYears t.second) :
    BytesBelow s.text t.text ↔ Below (s.written hs).chars (t.written ht).chars := by
  rw [written_text s hs, written_text t ht]
  exact bytesBelow_ascii (ascii_of_all (Written.ascii _)) (ascii_of_all (Written.ascii _))

/-- The text of the earlier one of two instants is the larger one exactly when it
overtakes the other. -/
theorem stamp_below_iff {s t : Stamp} (hs : InYears s.second) (ht : InYears t.second)
    (h : s.instant < t.instant) : BytesBelow t.text s.text ↔ Overtakes s t := by
  rw [bytesBelow_written t s ht hs, Written.below_iff]
  · cases s <;> cases t <;> rfl
  · rwa [written_instant, written_instant]

theorem stamp_below_or {s t : Stamp} (hs : InYears s.second) (ht : InYears t.second)
    (h : s.instant < t.instant) : BytesBelow s.text t.text ∨ BytesBelow t.text s.text := by
  rw [bytesBelow_written s t hs ht, bytesBelow_written t s ht hs]
  rcases below_trichotomy (s.written hs).chars (t.written ht).chars with hlt | heq | hgt
  · exact .inl hlt
  · refine absurd heq (Written.chars_ne ?_)
    rwa [written_instant, written_instant]
  · exact .inr hgt

theorem stamp_text_ne {s t : Stamp} (hs : InYears s.second) (ht : InYears t.second)
    (h : s.instant < t.instant) : s.text ≠ t.text := by
  intro hsame
  have hbelow := stamp_below_or hs ht h
  rw [hsame, or_self] at hbelow
  exact bytesBelow_irrefl _ hbelow

theorem second_eq (s : Stamp) : s.second = unixSeconds s.instant := by
  have hmillis (t : Int) : t / 1000000000 = t / 1000000 * 1000000 / 1000000000 := by omega
  cases s with
  | published t => rfl
  | logged t => exact hmillis t

/-- A timestamp stands for one instant. -/
theorem stamped_instant {e : Event} {s t : Stamp} (hs : Stamped e s) (ht : Stamped e t) :
    s.instant = t.instant := by
  have htext : text s.text = text t.text := hs.2.symm.trans ht.2
  have hsame : s.text = t.text := utf16_injective (Json.str.inj (Option.some.inj htext))
  rcases Int.lt_trichotomy s.instant t.instant with h | h | h
  · exact absurd hsame (stamp_text_ne hs.1 ht.1 h)
  · exact h
  · exact absurd hsame.symm (stamp_text_ne ht.1 hs.1 h)

/-! ## 2. Timelines -/

/-- The driver's order of two timestamps. -/
theorem le_stamped {sorter : Sorter} (hbytes : ByteOrder sorter) {a b : Event} {s t : Stamp}
    (hs : Stamped a s) (ht : Stamped b t) :
    sorter.le a.timestamp b.timestamp ↔ ¬ BytesBelow t.text s.text := by
  rw [hs.2, ht.2]
  exact hbytes s.text t.text (stamp_ascii s hs.1) (stamp_ascii t ht.1)

section

variable {sorter : Sorter} {deviceId : JsString} {docs : Collection}

/-- The events of the device, as the driver returns them. -/
theorem timeline_pairwise :
    (findByDeviceId sorter deviceId docs).Pairwise fun a b => sorter.le b.timestamp a.timestamp :=
  List.pairwise_map.mpr (sorter.descending _)

theorem mem_timeline {e : Event} (h : e ∈ docs) (hdevice : isText deviceId e.deviceId = true) :
    project e ∈ findByDeviceId sorter deviceId docs :=
  List.mem_map_of_mem ((sorter.perm _).mem_iff.mpr (List.mem_filter.mpr ⟨h, hdevice⟩))

theorem timeline_mem {e : Event} (h : e ∈ findByDeviceId sorter deviceId docs) :
    ∃ d ∈ docs, isText deviceId d.deviceId = true ∧ project d = e := by
  obtain ⟨d, hd, rfl⟩ := List.mem_map.mp h
  obtain ⟨hd, hdevice⟩ := List.mem_filter.mp ((sorter.perm _).mem_iff.mp hd)
  exact ⟨d, hd, hdevice, rfl⟩

/-- An event that overtakes a later one comes before it. -/
theorem not_chronological (hbytes : ByteOrder sorter) {a b : Event} (ha : a ∈ docs) (hb : b ∈ docs)
    (hda : isText deviceId a.deviceId = true) (hdb : isText deviceId b.deviceId = true) {s t : Stamp}
    (hs : Stamped a s) (ht : Stamped b t) (hlt : s.instant < t.instant) (hover : Overtakes s t) :
    ¬ Chronological (findByDeviceId sorter deviceId docs) := by
  intro hchron
  have hbelow := (stamp_below_iff hs.1 ht.1 hlt).mpr hover
  have hfirst : project a ∈ findByDeviceId sorter deviceId docs := mem_timeline ha hda
  have hmem : project b ∈ findByDeviceId sorter deviceId docs := mem_timeline hb hdb
  have hsorted : (findByDeviceId sorter deviceId docs).Pairwise _ := timeline_pairwise
  obtain ⟨before, after, hlist⟩ := List.append_of_mem hfirst
  unfold Chronological at hchron
  rw [hlist] at hmem hsorted hchron
  rcases List.mem_append.mp hmem with hbefore | hmem
  · -- the driver puts the larger text first
    have hle := (List.pairwise_append.mp hsorted).2.2 _ hbefore _ List.mem_cons_self
    exact (le_stamped hbytes hs ht).mp hle hbelow
  · rcases List.mem_cons.mp hmem with heq | hafter
    · have hat : Stamped a t := ⟨ht.1, (congrArg Event.timestamp heq).symm.trans ht.2⟩
      exact absurd hlt (stamped_instant hs hat ▸ Int.lt_irrefl _)
    · exact (List.pairwise_cons.mp (List.pairwise_append.mp hchron).2.1).1 _ hafter s t hs ht hlt

/-- Timelines are chronological exactly where no event overtakes a later one. The repository has
the driver sort the timestamps as texts, of which only the order of ASCII texts is needed
(`hbytes`); other events of the device may have any timestamp, or none. -/
theorem chronological_iff (sorter : Sorter) (hbytes : ByteOrder sorter) (deviceId : JsString)
    (docs : Collection) :
    Chronological (findByDeviceId sorter deviceId docs) ↔
      ∀ a ∈ docs, ∀ b ∈ docs, isText deviceId a.deviceId = true → isText deviceId b.deviceId = true →
        ∀ s t, Stamped a s → Stamped b t → s.instant < t.instant → ¬ Overtakes s t := by
  constructor
  · exact fun hchron a ha b hb hda hdb s t hs ht hlt hover =>
      not_chronological hbytes ha hb hda hdb hs ht hlt hover hchron
  · intro hnone
    refine timeline_pairwise.imp_of_mem ?_
    intro x y hx hy hle s t hs ht hlt
    obtain ⟨a, ha, hda, rfl⟩ := timeline_mem hx
    obtain ⟨b, hb, hdb, rfl⟩ := timeline_mem hy
    have hover := hnone a ha b hb hda hdb s t hs ht hlt
    rcases stamp_below_or hs.1 ht.1 hlt with hbelow | hbelow
    · exact (le_stamped hbytes ht hs).mp hle hbelow
    · exact hover ((stamp_below_iff hs.1 ht.1 hlt).mp hbelow)

end

/-! ## Two events within one second -/

theorem units_ascii {s : String} (h : s.toList.all isAscii = true) :
    units (text s) = s.toList.map Char.toNat := by
  have hascii := ascii_of_all h
  show ((utf16 s).map UInt16.toNat : List Nat) = _
  unfold utf16
  generalize s.toList = cs at hascii
  induction cs with
  | nil => rfl
  | cons c cs ih =>
    have hc := hascii c List.mem_cons_self
    have hunit : encodeUtf16 c = [UInt16.ofNat c.toNat] := by
      rw [encodeUtf16, if_pos (by omega)]
    rw [List.flatMap_cons, hunit, List.singleton_append, List.map_cons, List.map_cons,
      ih fun d hd => hascii d (List.mem_cons_of_mem _ hd), UInt16.toNat_ofNat']
    rw [Nat.mod_eq_of_lt (by omega)]

theorem map_toNat_lt {cs ds : List Char} : cs.map Char.toNat < ds.map Char.toNat ↔ Below cs ds := by
  induction cs generalizing ds with
  | nil =>
    cases ds with
    | nil => exact iff_of_false (List.lt_irrefl _) (below_irrefl [])
    | cons d ds => exact iff_of_true List.Lex.nil List.Lex.nil
  | cons c cs ih =>
    cases ds with
    | nil => exact iff_of_false (List.not_lt_nil _) not_below_nil
    | cons d ds =>
      rw [List.map_cons, List.map_cons, List.cons_lt_cons_iff, ih, below_cons, Char.toNat_inj]

/-- On ASCII strings code units are bytes. -/
theorem unitSorter_byteOrder : ByteOrder unitSorter := by
  intro s t hs ht
  show units (text s) ≤ units (text t) ↔ _
  rw [units_ascii hs, units_ascii ht, ← not_lt, map_toNat_lt,
    ← bytesBelow_ascii (ascii_of_all ht) (ascii_of_all hs), String.ofList_toList,
    String.ofList_toList]

/-- An event of a device, published at `t`. -/
def publishedAt (n : Nat) (t : Instant) : Event where
  id := text (Uuid.numbered n).toString
  type := text "device.updated"
  deviceId := text "550e8400-e29b-41d4-a716-446655440000"
  name := text "Sensor"
  timestamp := text (Stamp.published t).text
  actor := some .null
  description := some .null

/-- 2026-06-15T10:30:00Z. -/
def halfPastTen : Instant := 1781519400000000000

def oneDevice : JsString := utf16 "550e8400-e29b-41d4-a716-446655440000"

theorem publishedAt_device (n : Nat) (t : Instant) :
    isText oneDevice (publishedAt n t).deviceId = true := beq_self_eq_true _

theorem publishedAt_stamped (n : Nat) {t : Instant} (h : InYears (unixSeconds t)) :
    Stamped (publishedAt n t) (.published t) := ⟨h, rfl⟩

instance decidableInYears (s : Int) : Decidable (InYears s) :=
  inferInstanceAs (Decidable (_ ∧ _))

/-- Half a second later, but listed after the earlier event: `Z` is above the point. -/
theorem not_chronological_half : ¬ Chronological (findByDeviceId unitSorter oneDevice
    [publishedAt 1 halfPastTen, publishedAt 2 (halfPastTen + 500000000)]) :=
  not_chronological unitSorter_byteOrder List.mem_cons_self
    (List.mem_cons_of_mem _ List.mem_cons_self) (publishedAt_device 1 _) (publishedAt_device 2 _)
    (publishedAt_stamped 1 (by decide)) (publishedAt_stamped 2 (by decide)) (by decide)
    ⟨by decide, by decide⟩

/-- A whole second later the order is right. -/
theorem chronological_second : Chronological (findByDeviceId unitSorter oneDevice
    [publishedAt 1 halfPastTen, publishedAt 2 (halfPastTen + 1000000000)]) := by
  refine (chronological_iff unitSorter unitSorter_byteOrder oneDevice _).mpr ?_
  intro a ha b hb _ _ s t hs ht hlt hover
  have hsecond := hover.1
  rw [second_eq, second_eq] at hsecond
  have hfirst := publishedAt_stamped 1 (t := halfPastTen) (by decide)
  have hlater := publishedAt_stamped 2 (t := halfPastTen + 1000000000) (by decide)
  rcases List.mem_cons.mp ha with rfl | ha <;> rcases List.mem_cons.mp hb with rfl | hb
  · exact absurd hlt (stamped_instant hs ht ▸ Int.lt_irrefl _)
  · cases List.mem_singleton.mp hb
    rw [stamped_instant hs hfirst, stamped_instant ht hlater] at hsecond
    exact absurd hsecond (by decide)
  · cases List.mem_singleton.mp ha
    rw [stamped_instant hs hlater, stamped_instant ht hfirst] at hsecond
    exact absurd hsecond (by decide)
  · cases List.mem_singleton.mp ha
    cases List.mem_singleton.mp hb
    exact absurd hlt (stamped_instant hs ht ▸ Int.lt_irrefl _)

end AssetTracker.NodeService
