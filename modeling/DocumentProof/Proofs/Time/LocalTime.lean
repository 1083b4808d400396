import DocumentProof.Proofs.Time.Calendar
import DocumentProof.Proofs.Time.Digits

/-!
# Local times and their texts

A local time has a date, a time of day with a fraction of a second, and an offset from UTC. Its RFC
3339 forms (`LocalTime.Writes`) differ in the mark between date and time and in the sign or the
letter of the offset. Each of them is read as an instant in the second of the local time
(`readInstant_of_writes`), and no other text is read (`exists_of_readInstant`). So a text gives a
timestamp if it is a form of a local time, and it is the local time less its offset
(`ofText_eq_ok_iff`).
-/

namespace DocumentProof

theorem Instant.ofSeconds?_eq_some_iff {n : Int} {nanos : Nat} {i : Instant} :
    Instant.ofSeconds? n nanos = some i ↔
      i.seconds = n ∧ i.nanos = nanos ∧ (nanos < 1000000000 ∨ n.fmod 60 = 59) := by
  obtain ⟨seconds, k, lower, upper, short⟩ := i
  unfold ofSeconds?
  split_ifs with h
  · rw [Option.some.injEq, Instant.mk.injEq]
    constructor
    · rintro ⟨rfl, rfl⟩
      exact ⟨rfl, rfl, h.2.2⟩
    · rintro ⟨rfl, rfl, -⟩
      exact ⟨rfl, rfl⟩
  · refine iff_of_false nofun ?_
    rintro ⟨rfl, rfl, hleap⟩
    exact h ⟨⟨lower, upper⟩, short, hleap⟩

/-- A date and a time of day with a fraction of a second, and how far they are ahead of UTC, in
seconds. -/
structure LocalTime where
  date : Date
  hour : Nat
  minute : Nat
  second : Nat
  fraction : List Char
  offset : Int

namespace LocalTime

open Timestamp

/-! ### Offsets -/

/-- How offsets are written. -/
inductive IsOffset : List Char → Int → Prop
  | utc {c : Char} (mark : c = 'Z' ∨ c = 'z') : IsOffset [c] 0
  | ahead {h m : Nat} (hour : h < 24) (minute : m < 60) :
      IsOffset ('+' :: (padded 2 h ++ ':' :: padded 2 m)) ((h * 60 + m) * 60)
  | behind {c : Char} {h m : Nat} (sign : c = '-' ∨ c = '−') (hour : h < 24) (minute : m < 60) :
      IsOffset (c :: (padded 2 h ++ ':' :: padded 2 m)) (-((h * 60 + m) * 60))

theorem utf8_hours (h m : Nat) : utf8 (padded 2 h ++ ':' :: padded 2 m) =
    (padded 2 h).map byteOf ++ 0x3A :: (padded 2 m).map byteOf := by
  rw [utf8_append, utf8_cons (by decide), utf8_padded, utf8_padded]
  rfl

theorem readOffset_eq_ok_iff {bs : Bytes} {offset : Int} :
    readOffset bs = .ok (offset, []) ↔ ∃ zone, IsOffset zone offset ∧ bs = utf8 zone := by
  have hdigits : ∀ {cs : Bytes} {n : Int}, readOffsetDigits cs = .ok (n, []) ↔
      ∃ h m : Nat, h < 24 ∧ m < 60 ∧ n = (h * 60 + m) * 60 ∧
        cs = utf8 (padded 2 h ++ ':' :: padded 2 m) := by
    intro cs n
    simp only [readOffsetDigits_eq_ok_iff, utf8_hours, List.append_nil]
  constructor
  · intro hread
    unfold readOffset at hread
    split at hread
    · cases hread
    · cases hread
      exact ⟨['Z'], .utc (.inl rfl), (utf8_singleton (c := 'Z') (by decide)).symm⟩
    · cases hread
      exact ⟨['z'], .utc (.inr rfl), (utf8_singleton (c := 'z') (by decide)).symm⟩
    · obtain ⟨h, m, hh, hm, rfl, rfl⟩ := hdigits.mp hread
      exact ⟨_, .ahead hh hm, (utf8_cons (c := '+') (by decide) _).symm⟩
    · obtain ⟨⟨n, rest⟩, hread, heq⟩ := bind_eq_ok_iff.mp hread
      cases heq
      obtain ⟨h, m, hh, hm, rfl, rfl⟩ := hdigits.mp hread
      exact ⟨_, .behind (.inl rfl) hh hm, (utf8_cons (c := '-') (by decide) _).symm⟩
    · obtain ⟨⟨n, rest⟩, hread, heq⟩ := bind_eq_ok_iff.mp hread
      cases heq
      obtain ⟨h, m, hh, hm, rfl, rfl⟩ := hdigits.mp hread
      exact ⟨_, .behind (.inr rfl) hh hm, (utf8_minus _).symm⟩
    · cases hread
  · rintro ⟨zone, hzone, rfl⟩
    cases hzone with
    | utc mark =>
      rcases mark with rfl | rfl
      · rw [utf8_singleton (by decide)]
        rfl
      · rw [utf8_singleton (by decide)]
        rfl
    | ahead hour minute =>
      rw [utf8_cons (by decide)]
      exact hdigits.mpr ⟨_, _, hour, minute, rfl, rfl⟩
    | behind sign hour minute =>
      have hread := hdigits.mpr ⟨_, _, hour, minute, rfl, rfl⟩
      rcases sign with rfl | rfl
      · rw [utf8_cons (by decide)]
        exact bind_eq_ok_iff.mpr ⟨_, hread, rfl⟩
      · rw [utf8_minus]
        exact bind_eq_ok_iff.mpr ⟨_, hread, rfl⟩

theorem IsOffset.bounds {zone : List Char} {n : Int} (h : IsOffset zone n) :
    n % 60 = 0 ∧ -86400 < n ∧ n < 86400 := by
  cases h with
  | utc => decide
  | ahead hour minute => omega
  | behind sign hour minute => omega

/-- An offset does not begin as a fraction goes on. -/
theorem IsOffset.exists_cons {zone : List Char} {n : Int} (h : IsOffset zone n) :
    ∃ b rest, utf8 zone = b :: rest ∧ isDigit b = false ∧ b ≠ 0x2E := by
  cases h with
  | utc mark =>
    rcases mark with rfl | rfl
    · exact ⟨_, _, utf8_singleton (by decide), by decide⟩
    · exact ⟨_, _, utf8_singleton (by decide), by decide⟩
  | ahead => exact ⟨_, _, utf8_cons (by decide) _, by decide⟩
  | behind sign =>
    rcases sign with rfl | rfl
    · exact ⟨_, _, utf8_cons (by decide) _, by decide⟩
    · exact ⟨_, _, utf8_minus _, by decide⟩

/-! ### Whole texts -/

/-- The date and the time of day exist, in a year of four digits. The second 60 is a leap second. -/
structure Valid (w : LocalTime) : Prop where
  year : 0 ≤ w.date.year ∧ w.date.year ≤ 9999
  date : w.date.Valid
  hour : w.hour < 24
  minute : w.minute < 60
  second : w.second ≤ 60
  fraction : ∀ c ∈ w.fraction, c.isDigit = true

/-- The seconds since 1970 in UTC, without the fraction. A leap second counts as the second before
it. -/
def seconds (w : LocalTime) : Int :=
  w.date.toDays * 86400 + (w.hour * 3600 + w.minute * 60 + min w.second 59 : Nat) - w.offset

theorem seconds_bounds {w : LocalTime} (hw : w.Valid) {zone : List Char}
    (hzone : IsOffset zone w.offset) :
    -8334601228800 ≤ w.seconds ∧ w.seconds ≤ 8210266876799 := by
  have hspan := (Date.year_iff hw.date).mp hw.year
  have hoffset := hzone.bounds
  have hhour := hw.hour
  have hminute := hw.minute
  unfold seconds
  omega

/-- An offset has whole minutes, so a leap second is the last one of a minute in UTC, too. -/
theorem fmod_seconds {w : LocalTime} (hleap : w.second = 60) {zone : List Char}
    (hzone : IsOffset zone w.offset) : w.seconds.fmod 60 = 59 := by
  have hoffset := hzone.bounds
  rw [Int.fmod_eq_emod_of_nonneg _ (by decide)]
  unfold seconds
  rw [hleap]
  omega

/-- The characters of a date, a mark, a time of day and an offset. -/
def layout (w : LocalTime) (mark : Char) (zone : List Char) : List Char :=
  padded 4 w.date.year.toNat ++ '-' :: (padded 2 w.date.month ++ '-' :: (padded 2 w.date.day ++
    mark :: (padded 2 w.hour ++ ':' :: (padded 2 w.minute ++ ':' :: (padded 2 w.second ++
      (fractionText w.fraction ++ zone))))))

/-- What may stand between the date and the time of day. -/
def IsMark (c : Char) : Prop := c = 'T' ∨ c = 't' ∨ c = ' '

/-- The text is an RFC 3339 form of the date, the time and the offset. -/
def Writes (w : LocalTime) (s : String) : Prop :=
  ∃ mark zone, IsMark mark ∧ IsOffset zone w.offset ∧ s.toList = w.layout mark zone

theorem IsMark.ascii {c : Char} (h : IsMark c) : c.toNat ≤ 127 := by
  rcases h with rfl | rfl | rfl
  all_goals decide

theorem exists_isMark_iff {b : UInt8} :
    (∃ mark, IsMark mark ∧ b = byteOf mark) ↔ b = 0x54 ∨ b = 0x74 ∨ b = 0x20 := by
  simp only [IsMark, or_and_right, exists_or, exists_eq_left]
  rfl

theorem utf8_layout {w : LocalTime} (hw : w.Valid) {mark : Char} (hmark : IsMark mark)
    (zone : List Char) : utf8 (w.layout mark zone) =
      (padded 4 w.date.year.toNat).map byteOf ++ 0x2D :: ((padded 2 w.date.month).map byteOf ++
        0x2D :: ((padded 2 w.date.day).map byteOf ++ byteOf mark :: ((padded 2 w.hour).map byteOf ++
          0x3A :: ((padded 2 w.minute).map byteOf ++ 0x3A :: ((padded 2 w.second).map byteOf ++
            ((fractionText w.fraction).map byteOf ++ utf8 zone)))))) := by
  have hfraction : ∀ c ∈ fractionText w.fraction, c.toNat ≤ 127 := by
    intro c hc
    unfold fractionText at hc
    split at hc
    · cases hc
    · rcases List.mem_cons.mp hc with rfl | hc
      · decide
      · exact ascii_of_isDigit (hw.fraction c hc)
  have hdash : byteOf '-' = 0x2D := rfl
  have hcolon : byteOf ':' = 0x3A := rfl
  unfold layout
  simp only [utf8_append, utf8_cons hmark.ascii, utf8_cons (show '-'.toNat ≤ 127 by decide),
    utf8_cons (show ':'.toNat ≤ 127 by decide), utf8_padded, utf8_ascii hfraction, hdash, hcolon]

/-! ### Reading -/

/-- What is read of the nineteen bytes of a date and a time of day, and of the bytes after them. -/
theorem readInstant_cons_iff {y₁ y₂ y₃ y₄ s₁ m₁ m₂ s₂ d₁ d₂ s₃ h₁ h₂ s₄ n₁ n₂ s₅ c₁ c₂ : UInt8}
    {rest : Bytes} {i : Instant} :
    readInstant (y₁ :: y₂ :: y₃ :: y₄ :: s₁ :: m₁ :: m₂ :: s₂ :: d₁ :: d₂ :: s₃ :: h₁ :: h₂ :: s₄ ::
      n₁ :: n₂ :: s₅ :: c₁ :: c₂ :: rest) = .ok i ↔
    (s₁ = 0x2D ∧ s₂ = 0x2D ∧ (s₃ = 0x54 ∨ s₃ = 0x74 ∨ s₃ = 0x20) ∧ s₄ = 0x3A ∧ s₅ = 0x3A) ∧
    ∃ year month day hour minute second nanos zone offset,
      number? [y₁, y₂, y₃, y₄] = .ok year ∧ number? [m₁, m₂] = .ok month ∧
      number? [d₁, d₂] = .ok day ∧ Date.Valid ⟨year, month, day⟩ ∧ number? [h₁, h₂] = .ok hour ∧
      number? [n₁, n₂] = .ok minute ∧ number? [c₁, c₂] = .ok second ∧
      readFraction rest = .ok (nanos, zone) ∧ (hour < 24 ∧ minute < 60 ∧ second ≤ 60) ∧
      readOffset zone = .ok (offset, []) ∧
      Instant.ofSeconds? (Date.toDays ⟨year, month, day⟩ * 86400 +
        (hour * 3600 + minute * 60 + min second 59 : Nat) - offset)
        (nanos + if second = 60 then 1000000000 else 0) = some i := by
  unfold readInstant
  simp only [bind_eq_ok_iff, expect_eq_ok_iff, Prod.exists, beq_iff_eq, bne_iff_ne, Bool.or_eq_true,
    Bool.and_eq_true, decide_eq_true_eq]
  constructor
  · rintro ⟨_, -, year, hyear, _, hs₁, month, hmonth, _, hs₂, day, hday, _, hdate, _, hs₃, hour,
      hhour, _, hs₄, minute, hminute, _, hs₅, second, hsecond, nanos, zone, hfraction, _, htime,
      offset, left, hoffset, _, rfl, hi⟩
    split at hi
    · next hsome =>
      cases hi
      exact ⟨⟨hs₁, hs₂, or_assoc.mp hs₃, hs₄, hs₅⟩, year, month, day, hour, minute, second, nanos,
        zone, offset, hyear, hmonth, hday, hdate, hhour, hminute, hsecond, hfraction,
        and_assoc.mp htime, hoffset, hsome⟩
    · cases hi
  · rintro ⟨⟨hs₁, hs₂, hs₃, hs₄, hs₅⟩, year, month, day, hour, minute, second, nanos, zone, offset,
      hyear, hmonth, hday, hdate, hhour, hminute, hsecond, hfraction, htime, hoffset, hi⟩
    -- there is no offset in nothing
    have hsome : rest ≠ [] := by
      rintro rfl
      cases hfraction
      cases hoffset
    exact ⟨(), hsome, year, hyear, (), hs₁, month, hmonth, (), hs₂, day, hday, (), hdate, (),
      or_assoc.mpr hs₃, hour, hhour, (), hs₄, minute, hminute, (), hs₅, second, hsecond, nanos,
      zone, hfraction, (), and_assoc.mpr htime, offset, [], hoffset, (), rfl, by rw [hi]; rfl⟩

/-- **A text that is read is an RFC 3339 form,** and the instant falls into its second. -/
theorem exists_of_readInstant {s : String} {i : Instant}
    (h : readInstant (Bytes.ofString s) = .ok i) :
    ∃ w : LocalTime, w.Valid ∧ w.Writes s ∧ i.seconds = w.seconds := by
  obtain ⟨y₁, y₂, y₃, y₄, s₁, m₁, m₂, s₂, d₁, d₂, s₃, h₁, h₂, s₄, n₁, n₂, s₅, c₁, c₂, rest,
      hbytes⟩ :
      ∃ y₁ y₂ y₃ y₄ s₁ m₁ m₂ s₂ d₁ d₂ s₃ h₁ h₂ s₄ n₁ n₂ s₅ c₁ c₂ rest, Bytes.ofString s =
        y₁ :: y₂ :: y₃ :: y₄ :: s₁ :: m₁ :: m₂ :: s₂ :: d₁ :: d₂ :: s₃ :: h₁ :: h₂ :: s₄ ::
          n₁ :: n₂ :: s₅ :: c₁ :: c₂ :: rest := by
    unfold readInstant at h
    split at h
    · next hbytes => exact ⟨_, _, _, _, _, _, _, _, _, _, _, _, _, _, _, _, _, _, _, _, hbytes⟩
    · cases h
  rw [hbytes, readInstant_cons_iff] at h
  obtain ⟨⟨rfl, rfl, hs₃, rfl, rfl⟩, year, month, day, hour, minute, second, nanos, zone, offset,
    hyear, hmonth, hday, hdate, hhour, hminute, hsecond, hfraction, htime, hoffset, hi⟩ := h
  obtain ⟨mark, hmark, rfl⟩ := exists_isMark_iff.mpr hs₃
  obtain ⟨ds, hds, rfl⟩ := exists_of_readFraction hfraction
  obtain ⟨z, hz, rfl⟩ := readOffset_eq_ok_iff.mp hoffset
  have hw : Valid ⟨⟨year, month, day⟩, hour, minute, second, ds, offset⟩ := by
    refine ⟨⟨Int.natCast_nonneg year, ?_⟩, hdate, htime.1, htime.2.1, htime.2.2, hds⟩
    have := (number?_four_iff.mp hyear).1
    show (year : Int) ≤ 9999
    omega
  refine ⟨_, hw, ⟨mark, z, hmark, hz, ?_⟩, (Instant.ofSeconds?_eq_some_iff.mp hi).1⟩
  rw [← String.ofList_inj, String.ofList_toList, ← Bytes.ofString_inj]
  refine hbytes.trans (Eq.trans ?_ (utf8_layout hw hmark z).symm)
  dsimp only [Int.toNat_natCast]
  rw [(number?_four_iff.mp hyear).2, (number?_two_iff.mp hmonth).2, (number?_two_iff.mp hday).2,
    (number?_two_iff.mp hhour).2, (number?_two_iff.mp hminute).2, (number?_two_iff.mp hsecond).2]
  rfl

/-- **Each RFC 3339 form is read,** as an instant that falls into its second. -/
theorem readInstant_of_writes {w : LocalTime} {s : String} (hw : w.Valid) (hs : w.Writes s) :
    ∃ i, readInstant (Bytes.ofString s) = .ok i ∧ i.seconds = w.seconds := by
  obtain ⟨mark, zone, hmark, hzone, hs⟩ := hs
  have hbytes : Bytes.ofString s = utf8 (w.layout mark zone) := by
    rw [utf8, ← hs, String.ofList_toList]
  rw [utf8_layout hw hmark] at hbytes
  obtain ⟨hlower, hupper⟩ := seconds_bounds hw hzone
  obtain ⟨hyear, hdate, hhour, hminute, hsecond, hdigits⟩ := hw
  have hmonths := hdate
  unfold Date.Valid at hmonths
  have hdays := Date.daysInMonth_le w.date.year w.date.month
  obtain ⟨y₁, y₂, y₃, y₄, hy, hready⟩ := exists_four_digits (n := w.date.year.toNat) (by omega)
  obtain ⟨m₁, m₂, hm, hreadm⟩ := exists_two_digits (n := w.date.month) (by omega)
  obtain ⟨d₁, d₂, hd, hreadd⟩ := exists_two_digits (n := w.date.day) (by omega)
  obtain ⟨h₁, h₂, hh, hreadh⟩ := exists_two_digits (n := w.hour) (by omega)
  obtain ⟨n₁, n₂, hn, hreadn⟩ := exists_two_digits (n := w.minute) (by omega)
  obtain ⟨c₁, c₂, hc, hreadc⟩ := exists_two_digits (n := w.second) (by omega)
  obtain ⟨b, rest, hz, hb⟩ := hzone.exists_cons
  obtain ⟨nanos, hnanos, hfraction⟩ := readFraction_eq_ok hdigits hb rest
  have hnat : (w.date.year.toNat : Int) = w.date.year := Int.toNat_of_nonneg hyear.1
  have hshort : (nanos + if w.second = 60 then 1000000000 else 0) < 2000000000 := by
    split_ifs
    all_goals omega
  refine ⟨⟨w.seconds, _, hlower, hupper, hshort⟩, ?_, rfl⟩
  rw [hbytes, hy, hm, hd, hh, hn, hc, hz]
  refine readInstant_cons_iff.mpr ⟨⟨rfl, rfl, exists_isMark_iff.mp ⟨mark, hmark, rfl⟩, rfl, rfl⟩,
    _, _, _, _, _, _, nanos, b :: rest, w.offset, hready, hreadm, hreadd, ?_, hreadh, hreadn,
    hreadc, hfraction, ⟨hhour, hminute, hsecond⟩, readOffset_eq_ok_iff.mpr ⟨zone, hzone, hz.symm⟩,
    Instant.ofSeconds?_eq_some_iff.mpr ?_⟩
  · rwa [hnat]
  · rw [hnat]
    refine ⟨rfl, rfl, ?_⟩
    by_cases hleap : w.second = 60
    · exact .inr (fmod_seconds hleap hzone)
    · rw [if_neg hleap]
      exact .inl hnanos

end LocalTime

/-- **A text gives a timestamp if it is a form of a local time, and this is the local time less its
offset,** without the fraction. -/
theorem Timestamp.ofText_eq_ok_iff {s : String} {t : Timestamp} : ofText s = .ok t ↔
    ∃ w : LocalTime, w.Valid ∧ w.Writes s ∧ t.seconds = w.seconds := by
  unfold ofText
  constructor
  · intro h
    split at h
    · cases h
    · next i hi =>
      cases h
      obtain ⟨w, hw, hs, hseconds⟩ := LocalTime.exists_of_readInstant hi
      exact ⟨w, hw, hs, hseconds⟩
  · rintro ⟨w, hw, hs, ht⟩
    obtain ⟨i, hi, hseconds⟩ := LocalTime.readInstant_of_writes hw hs
    rw [hi]
    obtain ⟨seconds, lower, upper⟩ := t
    obtain rfl : seconds = i.seconds := ht.trans hseconds.symm
    rfl

end DocumentProof
