import DocumentProof.Proofs.Time.LocalTime
import Mathlib.Data.List.Forall2
import Mathlib.Data.Rat.Floor

/-!
# Timestamps and their texts

The text of a timestamp is a form of its local time in UTC (`writes_toText`) as long as the year has
four digits; else the year has a sign (`year_of_digit`), so the text neither has the promised form
(`hasForm_toText_iff`) nor is it read (`ofUtcText_toText_iff`). The years of four digits begin and
end with the seconds of `year_iff`, and a caller's date may lie beyond them (`dateText_form`,
`dateText_loses_year`). Seconds, milliseconds and texts are all taken to the second they fall into
(`conversions`).
-/

namespace DocumentProof

/-- The forms of local times begin with the year. -/
theorem LocalTime.Writes.exists_digit {w : LocalTime} {s : String} (h : w.Writes s)
    (hw : w.Valid) : ∃ c cs, s.toList = c :: cs ∧ c.isDigit = true := by
  obtain ⟨mark, zone, -, -, hs⟩ := h
  have hyear := hw.year
  have hlen := Timestamp.length_padded (k := 4) (n := w.date.year.toNat) (by decide) (by omega)
  obtain ⟨c, cs, hcs⟩ := List.exists_cons_of_length_eq_add_one hlen
  have hc : c ∈ Timestamp.padded 4 w.date.year.toNat := by
    rw [hcs]
    exact List.mem_cons_self
  exact ⟨c, _, by rw [hs, layout, hcs, List.cons_append], Timestamp.isDigit_of_mem_padded hc⟩

namespace Timestamp

/-! ### Texts of timestamps -/

/-- The date and the time of day in UTC. -/
def toLocal (t : Timestamp) : LocalTime :=
  ⟨t.date, t.secondOfDay / 3600, t.secondOfDay / 60 % 60, t.secondOfDay % 60, [], 0⟩

theorem valid_date (t : Timestamp) : t.date.Valid := (Date.ofDays_spec _).1

theorem secondOfDay_eq (t : Timestamp) :
    t.date.toDays * 86400 + t.secondOfDay = t.seconds ∧ t.secondOfDay < 86400 := by
  unfold date secondOfDay
  rw [(Date.ofDays_spec _).2, Int.fdiv_eq_ediv_of_nonneg _ (by decide),
    Int.fmod_eq_emod_of_nonneg _ (by decide)]
  omega

theorem seconds_toLocal (t : Timestamp) : t.toLocal.seconds = t.seconds := by
  obtain ⟨hseconds, hday⟩ := secondOfDay_eq t
  unfold LocalTime.seconds toLocal
  dsimp only
  omega

/-- The first and the last second of the years of four digits. -/
theorem year_iff (t : Timestamp) : 0 ≤ t.date.year ∧ t.date.year ≤ 9999 ↔
    -62167219200 ≤ t.seconds ∧ t.seconds < 253402300800 := by
  obtain ⟨hseconds, hday⟩ := secondOfDay_eq t
  rw [Date.year_iff (valid_date t)]
  omega

theorem valid_toLocal {t : Timestamp} (h : 0 ≤ t.date.year ∧ t.date.year ≤ 9999) :
    t.toLocal.Valid := by
  obtain ⟨-, hday⟩ := secondOfDay_eq t
  refine ⟨h, valid_date t, ?_, Nat.mod_lt _ (by decide), ?_, List.forall_mem_nil _⟩
  · show t.secondOfDay / 3600 < 24
    omega
  · show t.secondOfDay % 60 ≤ 60
    omega

theorem toList_toText {t : Timestamp} (h : 0 ≤ t.date.year ∧ t.date.year ≤ 9999) :
    t.toText.toList = t.toLocal.layout 'T' ['Z'] := by
  have hyear : yearText t.date.year = padded 4 t.date.year.toNat := by
    rw [yearText, if_pos h, show t.date.year.natAbs = t.date.year.toNat by omega]
  unfold toText
  simp only [String.toList_ofList, hyear, List.append_assoc, List.cons_append]
  unfold LocalTime.layout toLocal
  dsimp only
  rfl

theorem writes_toText {t : Timestamp} (h : 0 ≤ t.date.year ∧ t.date.year ≤ 9999) :
    t.toLocal.Writes t.toText :=
  ⟨'T', ['Z'], .inl rfl, .utc (.inl rfl), toList_toText h⟩

/-- A year of other than four digits has a sign. -/
theorem year_of_digit {t : Timestamp} {c : Char} {cs : List Char} (h : t.toText.toList = c :: cs)
    (hc : c.isDigit = true) : 0 ≤ t.date.year ∧ t.date.year ≤ 9999 := by
  by_contra hyear
  unfold toText yearText at h
  rw [String.toList_ofList, if_neg hyear] at h
  obtain rfl := (List.cons.inj h).1
  split_ifs at hc
  all_goals exact absurd hc (by decide)

theorem ofUtcText_eq_ok_iff {s : String} {t : Timestamp} :
    ofUtcText s = .ok t ↔ s.toList.getLast? = some 'Z' ∧ ofText s = .ok t := by
  unfold ofUtcText
  split_ifs with h
  · exact (and_iff_right h).symm
  · exact iff_of_false nofun fun h' => h h'.1

theorem ofText_toText {t : Timestamp} (h : 0 ≤ t.date.year ∧ t.date.year ≤ 9999) :
    ofText t.toText = .ok t :=
  ofText_eq_ok_iff.mpr ⟨_, valid_toLocal h, writes_toText h, (seconds_toLocal t).symm⟩

/-- The text of a timestamp is read as this timestamp, if its year has four digits, and else it is
not read. -/
theorem ofUtcText_toText_iff {t u : Timestamp} : ofUtcText t.toText = .ok u ↔
    (0 ≤ t.date.year ∧ t.date.year ≤ 9999) ∧ u = t := by
  rw [ofUtcText_eq_ok_iff]
  constructor
  · rintro ⟨-, h⟩
    obtain ⟨w, hw, hs, -⟩ := ofText_eq_ok_iff.mp h
    obtain ⟨c, cs, hcs, hc⟩ := hs.exists_digit hw
    have hyear := year_of_digit hcs hc
    rw [ofText_toText hyear] at h
    exact ⟨hyear, (Except.ok.inj h).symm⟩
  · rintro ⟨h, rfl⟩
    refine ⟨?_, ofText_toText h⟩
    unfold toText
    rw [String.toList_ofList, List.getLast?_concat]

/-! ### Numbers of seconds and of milliseconds -/

/-- Less than a second after the start of a second, it is still the same second. -/
theorem exists_ofSeconds?_iff {n : Int} {k : Nat} (hk : k < 1000000000) {t : Timestamp} :
    (∃ i, Instant.ofSeconds? n k = some i ∧ ofInstant i = t) ↔ t.seconds = n := by
  constructor
  · rintro ⟨i, hi, rfl⟩
    exact (Instant.ofSeconds?_eq_some_iff.mp hi).1
  · intro h
    exact ⟨⟨t.seconds, k, t.lower, t.upper, by omega⟩,
      Instant.ofSeconds?_eq_some_iff.mpr ⟨h, rfl, .inl hk⟩, rfl⟩

theorem ofSeconds_eq_ok_iff {n : Int} {t : Timestamp} : ofSeconds n = .ok t ↔ t.seconds = n := by
  rw [← exists_ofSeconds?_iff (k := 0) (by decide)]
  unfold ofSeconds
  split
  · next i hi => simp [hi]
  · next hi => simp [hi]

theorem ofMilliseconds_eq_ok_iff {n : Int} {t : Timestamp} :
    ofMilliseconds n = .ok t ↔ t.seconds = n.fdiv 1000 := by
  have hfraction : (n.fmod 1000).toNat * 1000000 < 1000000000 := by
    rw [Int.fmod_eq_emod_of_nonneg _ (by decide)]
    omega
  rw [← exists_ofSeconds?_iff hfraction]
  unfold ofMilliseconds Instant.ofMilliseconds?
  split
  · next i hi => simp [hi]
  · next hi => simp [hi]

/-! ### The form of texts -/

/-- A letter of a pattern stands for a digit, and other characters stand for themselves. -/
def Fits (p c : Char) : Prop := if p ∈ ['Y', 'M', 'D', 'H', 'S'] then c.isDigit = true else c = p

/-- The form in which timestamps are written. -/
def HasForm (s : String) : Prop := List.Forall₂ Fits "YYYY-MM-DDTHH:MM:SSZ".toList s.toList

theorem fits_padded {p : Char} (hp : p ∈ ['Y', 'M', 'D', 'H', 'S']) {width n : Nat}
    (hw : 0 < width) (hn : n < 10 ^ width) :
    List.Forall₂ Fits (List.replicate width p) (padded width n) := by
  rw [List.forall₂_iff_zip]
  refine ⟨by rw [List.length_replicate, length_padded hw hn], fun {a b} h => ?_⟩
  obtain ⟨ha, hb⟩ := List.of_mem_zip h
  rw [Fits, List.eq_of_mem_replicate ha, if_pos hp]
  exact isDigit_of_mem_padded hb

theorem form_eq : "YYYY-MM-DDTHH:MM:SSZ".toList = List.replicate 4 'Y' ++ '-' ::
    (List.replicate 2 'M' ++ '-' :: (List.replicate 2 'D' ++ 'T' :: (List.replicate 2 'H' ++ ':' ::
      (List.replicate 2 'M' ++ ':' :: (List.replicate 2 'S' ++ ['Z']))))) := rfl

/-- The text of a timestamp has the form exactly if its year has four digits. -/
theorem hasForm_toText_iff (t : Timestamp) :
    HasForm t.toText ↔ 0 ≤ t.date.year ∧ t.date.year ≤ 9999 := by
  unfold HasForm
  rw [form_eq]
  constructor
  · intro h
    obtain ⟨c, cs, hc, -, hcs⟩ := List.forall₂_cons_left_iff.mp h
    exact year_of_digit hcs hc
  · intro h
    obtain ⟨hyear, hdate, hhour, hminute, hsecond, -⟩ := valid_toLocal h
    have hday := Date.daysInMonth_le t.toLocal.date.year t.toLocal.date.month
    unfold Date.Valid at hdate
    rw [toList_toText h, LocalTime.layout]
    refine List.rel_append (fits_padded (by decide) (by decide) (by omega)) (.cons rfl ?_)
    refine List.rel_append (fits_padded (by decide) (by decide) (by omega)) (.cons rfl ?_)
    refine List.rel_append (fits_padded (by decide) (by decide) (by omega)) (.cons rfl ?_)
    refine List.rel_append (fits_padded (by decide) (by decide) (by omega)) (.cons rfl ?_)
    refine List.rel_append (fits_padded (by decide) (by decide) (by omega)) (.cons rfl ?_)
    exact List.rel_append (fits_padded (by decide) (by decide) (by omega)) (.cons rfl .nil)

theorem ofMilliseconds_floor {n : Int} {t : Timestamp} :
    ofMilliseconds n = .ok t ↔ t.seconds = ⌊(n : ℚ) / 1000⌋ := by
  have hfloor : ⌊(n : ℚ) / 1000⌋ = n.fdiv 1000 := by
    rw [Int.fdiv_eq_ediv_of_nonneg _ (by decide)]
    exact_mod_cast Rat.floor_intCast_div_natCast n 1000
  rw [hfloor, ofMilliseconds_eq_ok_iff]

/-- **Timestamps are whole seconds and survive rendering.** -/
theorem conversions :
    (∀ i, (ofInstant i).toInstant = i.truncated ∧ i.truncated.nanos = 0 ∧
      (ofInstant i).seconds = i.seconds) ∧
    (∀ t : Timestamp, t.toInstant.nanos = 0 ∧ ofSeconds t.seconds = .ok t) ∧
    (∀ n t, ofSeconds n = .ok t ↔ t.seconds = n) ∧
    (∀ n t, ofMilliseconds n = .ok t ↔ t.seconds = ⌊(n : ℚ) / 1000⌋) ∧
    (∀ s t, ofText s = .ok t ↔ ∃ w : LocalTime, w.Valid ∧ w.Writes s ∧ t.seconds = w.seconds) ∧
    (∀ s t, ofUtcText s = .ok t ↔ s.toList.getLast? = some 'Z' ∧ ofText s = .ok t) ∧
    ∀ t u : Timestamp, ofUtcText t.toText = .ok u ↔
      (0 ≤ t.date.year ∧ t.date.year ≤ 9999) ∧ u = t :=
  ⟨fun _ => ⟨rfl, rfl, rfl⟩, fun _ => ⟨rfl, ofSeconds_eq_ok_iff.mpr rfl⟩,
    fun _ _ => ofSeconds_eq_ok_iff, fun _ _ => ofMilliseconds_floor, fun _ _ => ofText_eq_ok_iff,
    fun _ _ => ofUtcText_eq_ok_iff, fun _ _ => ofUtcText_toText_iff⟩

end Timestamp

/-- The second that a date falls into. -/
def DateInput.FallsIn : DateInput → Int → Prop
  | .milliseconds n _ _, second => second * 1000 ≤ n ∧ n < (second + 1) * 1000
  | .text s, second => ∃ w : LocalTime, w.Valid ∧ w.Writes s ∧ second = w.seconds

theorem DateInput.timestamp_eq_ok_iff {d : DateInput} {t : Timestamp} :
    d.timestamp = .ok t ↔ d.FallsIn t.seconds := by
  cases d with
  | milliseconds n =>
    refine Timestamp.ofMilliseconds_eq_ok_iff.trans ?_
    rw [Int.fdiv_eq_ediv_of_nonneg _ (by decide)]
    unfold FallsIn
    omega
  | text s => exact Timestamp.ofText_eq_ok_iff

open Timestamp

/-- **The text of an accepted date has the promised form and is read as the second of the date**
exactly if the second falls into the years 0 to 9999. -/
theorem dateText_form {now : Timestamp} {d : DateInput} {text : String}
    (h : dateText now (some d) = .ok text) : ∃ t : Timestamp, d.FallsIn t.seconds ∧
      (HasForm text ↔ -62167219200 ≤ t.seconds ∧ t.seconds < 253402300800) ∧
      ∀ u, ofUtcText text = .ok u ↔
        (-62167219200 ≤ t.seconds ∧ t.seconds < 253402300800) ∧ u = t := by
  obtain ⟨t, ht, htext⟩ := bind_eq_ok_iff.mp h
  obtain rfl := Except.ok.inj htext
  refine ⟨t, DateInput.timestamp_eq_ok_iff.mp ht, ?_⟩
  rw [← year_iff]
  exact ⟨hasForm_toText_iff t, fun u => ofUtcText_toText_iff⟩

theorem dateText_form_epoch :
    dateText ⟨0, by decide, by decide⟩ (some (.milliseconds 0 (by decide) (by decide)))
        = .ok "1970-01-01T00:00:00Z" ∧
      ∃ t : Timestamp, DateInput.FallsIn (.milliseconds 0 (by decide) (by decide)) t.seconds ∧
        (HasForm "1970-01-01T00:00:00Z" ↔
          -62167219200 ≤ t.seconds ∧ t.seconds < 253402300800) ∧
        ∀ u, ofUtcText "1970-01-01T00:00:00Z" = .ok u ↔
          (-62167219200 ≤ t.seconds ∧ t.seconds < 253402300800) ∧ u = t :=
  ⟨by rfl, @dateText_form ⟨0, by decide, by decide⟩ _ _ (by rfl)⟩

/-- The first second after the year 9999 is written with a sign and five digits, and this text is
not read. -/
theorem dateText_loses_year :
    dateText ⟨0, by decide, by decide⟩
        (some (.milliseconds 253402300800000 (by decide) (by decide)))
        = .ok "+10000-01-01T00:00:00Z" ∧
      ¬ HasForm "+10000-01-01T00:00:00Z" ∧
      ∀ u, ofUtcText "+10000-01-01T00:00:00Z" ≠ .ok u := by
  let t : Timestamp := ⟨253402300800, by decide, by decide⟩
  have htext : t.toText = "+10000-01-01T00:00:00Z" := by decide +kernel
  have hyear : ¬ (0 ≤ t.date.year ∧ t.date.year ≤ 9999) := by
    rw [year_iff]
    decide
  rw [← htext, hasForm_toText_iff]
  refine ⟨bind_eq_ok_iff.mpr ⟨t, ?_, rfl⟩, hyear, fun u hu => hyear (ofUtcText_toText_iff.mp hu).1⟩
  exact DateInput.timestamp_eq_ok_iff.mpr ⟨by decide, by decide⟩

end DocumentProof
