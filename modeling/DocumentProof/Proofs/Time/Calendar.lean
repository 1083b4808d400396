import DocumentProof.Time.Calendar
import Mathlib.Algebra.Order.Ring.Int
import Mathlib.Order.Monotone.Basic
import Mathlib.Tactic.IntervalCases

/-!
# Days and dates determine each other

Where years begin in March, the days before a year are a formula without cases (`yearStart`), and so
are the days of a year before a month (`monthStart`). The number of a day is the sum of both and the
day of the month (`toDays_eq`), and a date exists if this sum stays below the next month and the
next year (`le_daysInMonth_iff`). So each day has exactly one date (`ofDays_spec`, `ofDays_toDays`),
and the days are counted as a calendar is turned over (`toDays_next`).
-/

namespace DocumentProof

namespace Date

/-! ### Years that begin in March -/

/-- The days before a year. -/
def yearStart (y : Int) : Int := 365 * y + y / 4 - y / 100 + y / 400

/-- The days of a year before a month, March being the month 0. -/
def monthStart (m : Int) : Int := (153 * m + 2) / 5

/-- The year that a date falls into. -/
def marchYear (d : Date) : Int := if d.month ≤ 2 then d.year - 1 else d.year

/-- The months since March. -/
def marchMonth (d : Date) : Int := if d.month ≤ 2 then d.month + 9 else d.month - 3

theorem toDays_eq (d : Date) :
    d.toDays = yearStart d.marchYear + monthStart d.marchMonth + d.day - 719469 := by
  unfold toDays yearStart monthStart marchYear marchMonth
  simp only [Int.fdiv_eq_ediv_of_nonneg _ (show (0 : Int) ≤ 400 by decide)]
  split
  all_goals omega

theorem yearStart_lt (y : Int) : yearStart y + 365 ≤ yearStart (y + 1) := by
  unfold yearStart
  omega

theorem yearStart_le (y : Int) : yearStart (y + 1) ≤ yearStart y + 366 := by
  unfold yearStart
  omega

theorem yearStart_le_iff {y z : Int} : yearStart y ≤ yearStart z ↔ y ≤ z := by
  have hmono : StrictMono yearStart := strictMono_int_of_lt_succ fun y => by
    have := yearStart_lt y
    omega
  exact hmono.le_iff_le

theorem yearStart_lt_iff {y z : Int} : yearStart y < yearStart z ↔ y < z := by
  rw [← not_le, yearStart_le_iff, not_le]

/-- A day falls into one year only. -/
theorem eq_of_yearStart {y z s : Int} (hy : yearStart y ≤ s) (hy' : s < yearStart (y + 1))
    (hz : yearStart z ≤ s) (hz' : s < yearStart (z + 1)) : y = z := by
  have h := yearStart_lt_iff.mp (hy.trans_lt hz')
  have h' := yearStart_lt_iff.mp (hz.trans_lt hy')
  omega

/-- A leap day is the last day of its year. -/
theorem isLeapYear_iff (y : Int) :
    isLeapYear (y + 1) = true ↔ yearStart (y + 1) = yearStart y + 366 := by
  unfold isLeapYear yearStart
  simp only [Bool.and_eq_true, Bool.or_eq_true, beq_iff_eq, bne_iff_ne]
  omega

theorem daysInMonth_le (year : Int) (month : Nat) : daysInMonth year month ≤ 31 := by
  unfold daysInMonth
  split_ifs
  all_goals decide

theorem marchMonth_bounds {d : Date} (h : 1 ≤ d.month ∧ d.month ≤ 12) :
    0 ≤ d.marchMonth ∧ d.marchMonth ≤ 11 := by
  unfold marchMonth
  split_ifs
  all_goals omega

/-- A month ends before the next one begins, and February ends with its year. -/
theorem le_daysInMonth_iff {d : Date} (h : 1 ≤ d.month ∧ d.month ≤ 12) :
    d.day ≤ daysInMonth d.year d.month ↔
      monthStart d.marchMonth + d.day ≤ monthStart (d.marchMonth + 1) ∧
      yearStart d.marchYear + monthStart d.marchMonth + d.day ≤ yearStart (d.marchYear + 1) := by
  obtain ⟨year, month, day⟩ := d
  obtain ⟨hm₁, hm₂⟩ : 1 ≤ month ∧ month ≤ 12 := h
  have hleap := isLeapYear_iff (year - 1)
  have h₁ := yearStart_lt (year - 1)
  have h₂ := yearStart_le (year - 1)
  have h₃ := yearStart_lt year
  rw [Int.sub_add_cancel] at hleap h₁ h₂
  unfold daysInMonth marchMonth marchYear monthStart
  by_cases hfeb : month = 2
  · subst hfeb
    simp only [if_true, le_refl, Int.sub_add_cancel]
    split_ifs with hl
    · have := hleap.mp hl
      omega
    · have := mt hleap.mpr hl
      omega
  · interval_cases month
    all_goals simp
    all_goals omega

/-! ### Cycles of 400 years -/

/-- The year of a cycle that a day of the cycle falls into. -/
def yearOfCycle (s : Int) : Int := (s - s / 1460 + s / 36524 - s / 146096) / 365

theorem yearOfCycle_le_succ (s : Nat) : yearOfCycle s ≤ yearOfCycle (s + 1 : Nat) := by
  unfold yearOfCycle
  refine Int.ediv_le_ediv (by decide) ?_
  push_cast
  omega

theorem yearOfCycle_mono {s t : Int} (hs : 0 ≤ s) (h : s ≤ t) : yearOfCycle s ≤ yearOfCycle t := by
  obtain ⟨a, rfl⟩ := Int.eq_ofNat_of_zero_le hs
  obtain ⟨b, rfl⟩ := Int.eq_ofNat_of_zero_le (hs.trans h)
  exact monotone_nat_of_le_succ (f := fun s : Nat => yearOfCycle s) yearOfCycle_le_succ (by omega)

/-- On the first and the last day of each year of the cycle it is this year. -/
theorem yearOfCycle_ends : ∀ y < 400, yearOfCycle (yearStart (y : Nat)) = y ∧
    yearOfCycle (yearStart (y + 1 : Nat) - 1) = y := by
  decide +kernel

/-- As it does not fall from day to day, it is the year on all days between them. -/
theorem yearOfCycle_spec {s : Int} (h₀ : 0 ≤ s) (h₁ : s < 146097) :
    0 ≤ yearOfCycle s ∧ yearOfCycle s < 400 ∧
      yearStart (yearOfCycle s) ≤ s ∧ s < yearStart (yearOfCycle s + 1) := by
  have hlow : 0 ≤ yearOfCycle s := yearOfCycle_mono le_rfl h₀
  have hhigh : yearOfCycle s ≤ yearOfCycle 146096 := yearOfCycle_mono h₀ (by omega)
  rw [show yearOfCycle 146096 = 399 by decide] at hhigh
  obtain ⟨y, hy⟩ := Int.eq_ofNat_of_zero_le hlow
  rw [hy] at hhigh ⊢
  obtain ⟨hstart, hend⟩ := yearOfCycle_ends y (by omega)
  refine ⟨by omega, by omega, ?_, ?_⟩
  · -- else the day is not after the last one of the year before
    by_contra hlt
    have hy0 : y ≠ 0 := by
      rintro rfl
      exact hlt h₀
    obtain ⟨z, rfl⟩ := Nat.exists_eq_succ_of_ne_zero hy0
    have hle := yearOfCycle_mono h₀ (Int.le_sub_one_of_lt (not_le.mp hlt))
    have hlast := (yearOfCycle_ends z (by omega)).2
    push_cast at *
    omega
  · -- else the day is not before the first one of the year after
    by_contra hlt
    have hle := yearOfCycle_mono (by unfold yearStart; omega) (not_lt.mp hlt)
    by_cases hlast : y = 399
    · subst hlast
      exact hlt h₁
    · have hnext := (yearOfCycle_ends (y + 1) (by omega)).1
      push_cast at *
      omega

/-! ### Dates of days -/

/-- The year, the month and the day of the month of a day. -/
theorem exists_ofDays (n : Int) : ∃ y m k : Int, 0 ≤ m ∧ m ≤ 11 ∧ 1 ≤ k ∧
    monthStart m + k ≤ monthStart (m + 1) ∧ yearStart y + monthStart m + k ≤ yearStart (y + 1) ∧
    n + 719469 = yearStart y + monthStart m + k ∧
    ofDays n = ⟨if m < 10 then y else y + 1, (if m < 10 then m + 3 else m - 9).toNat, k.toNat⟩ := by
  set s := (n + 719468) % 146097 with hs
  set c := (n + 719468) / 146097 with hc
  obtain ⟨hy₀, hy₁, hstart, hend⟩ := yearOfCycle_spec (s := s) (by omega) (by omega)
  set y := yearOfCycle s with hy
  -- every cycle has the same number of days
  have hcycle : ∀ z, yearStart (z + c * 400) = yearStart z + c * 146097 := by
    intro z
    unfold yearStart
    omega
  -- within a cycle no year counts as a fourth century
  have hplain : yearStart y = 365 * y + y / 4 - y / 100 := by
    unfold yearStart
    omega
  have hlen := yearStart_le y
  refine ⟨y + c * 400, (5 * (s - yearStart y) + 2) / 153,
    s - yearStart y - monthStart ((5 * (s - yearStart y) + 2) / 153) + 1,
    ?_, ?_, ?_, ?_, ?_, ?_, ?_⟩
  · omega
  · omega
  · unfold monthStart
    omega
  · unfold monthStart
    omega
  · rw [show y + c * 400 + 1 = (y + 1) + c * 400 by omega, hcycle, hcycle]
    omega
  · rw [hcycle]
    omega
  · have hfdiv : (n + 719468).fdiv 146097 = c := Int.fdiv_eq_ediv_of_nonneg _ (by decide)
    have hmod : n + 719468 - c * 146097 = s := by omega
    have hyear : (s - s / 1460 + s / 36524 - s / 146096) / 365 = y := rfl
    unfold ofDays
    simp only [hfdiv, hmod, hyear, ← hplain]
    rfl

/-- **Each day has a date that exists and falls on this day.** -/
theorem ofDays_spec (n : Int) : (ofDays n).Valid ∧ (ofDays n).toDays = n := by
  obtain ⟨y, m, k, hm, hm', hk, hmonth, hyear, hn, hdate⟩ := exists_ofDays n
  have hmarch : (ofDays n).marchYear = y ∧ (ofDays n).marchMonth = m := by
    rw [hdate]
    unfold marchYear marchMonth
    dsimp only
    constructor
    all_goals split_ifs
    all_goals omega
  have hday : ((ofDays n).day : Int) = k := by
    rw [hdate]
    dsimp only
    omega
  have hmonths : 1 ≤ (ofDays n).month ∧ (ofDays n).month ≤ 12 := by
    rw [hdate]
    dsimp only
    split_ifs
    all_goals omega
  constructor
  · refine ⟨hmonths.1, hmonths.2, by omega, (le_daysInMonth_iff hmonths).mpr ?_⟩
    rw [hmarch.1, hmarch.2, hday]
    exact ⟨hmonth, hyear⟩
  · rw [toDays_eq, hmarch.1, hmarch.2, hday]
    omega

/-- Dates that exist and fall on one day are equal. -/
theorem eq_of_toDays_eq {d e : Date} (hd : d.Valid) (he : e.Valid) (h : d.toDays = e.toDays) :
    d = e := by
  obtain ⟨hd₁, hd₂, hd₃, hd₄⟩ := hd
  obtain ⟨he₁, he₂, he₃, he₄⟩ := he
  obtain ⟨hdm, hdy⟩ := (le_daysInMonth_iff ⟨hd₁, hd₂⟩).mp hd₄
  obtain ⟨hem, hey⟩ := (le_daysInMonth_iff ⟨he₁, he₂⟩).mp he₄
  have hd₀ := marchMonth_bounds ⟨hd₁, hd₂⟩
  have he₀ := marchMonth_bounds ⟨he₁, he₂⟩
  have hdays := toDays_eq d
  have hdays' := toDays_eq e
  unfold monthStart at *
  have hyear : d.marchYear = e.marchYear :=
    eq_of_yearStart (s := d.toDays + 719468) (by omega) (by omega) (by omega) (by omega)
  rw [hyear] at hdays
  have hmonth : d.marchMonth = e.marchMonth := by omega
  obtain ⟨y, m, k⟩ := d
  obtain ⟨y', m', k'⟩ := e
  unfold marchYear at hyear
  rw [hmonth] at hdays
  unfold marchMonth at hmonth
  dsimp only at *
  rw [Date.mk.injEq]
  split_ifs at *
  all_goals omega

/-- **A date that exists is the date of its day.** -/
theorem ofDays_toDays {d : Date} (h : d.Valid) : ofDays d.toDays = d :=
  eq_of_toDays_eq (ofDays_spec _).1 h (ofDays_spec _).2

/-! ### Years of four digits -/

/-- A date falls into a year or a later one if it is not before the first day of the year. -/
theorem le_year_iff {d : Date} (h : d.Valid) (y : Int) :
    y ≤ d.year ↔ toDays ⟨y, 1, 1⟩ ≤ d.toDays := by
  obtain ⟨h₁, h₂, h₃, h₄⟩ := h
  obtain ⟨hmonth, hyear⟩ := (le_daysInMonth_iff ⟨h₁, h₂⟩).mp h₄
  have hfirst : toDays ⟨y, 1, 1⟩ = yearStart (y - 1) + 307 - 719469 := by
    rw [toDays_eq]
    unfold marchYear marchMonth monthStart
    simp
    omega
  rw [hfirst, toDays_eq d]
  by_cases hmarch : d.month ≤ 2
  · have hy : d.marchYear = d.year - 1 := if_pos hmarch
    have hm : d.marchMonth = d.month + 9 := if_pos hmarch
    rw [hm] at hmonth
    rw [hy, hm] at hyear ⊢
    have hle := @yearStart_le_iff (y - 1) (d.year - 1)
    have hlt := @yearStart_le_iff (d.year - 1 + 1) (y - 1)
    unfold monthStart at *
    omega
  · have hy : d.marchYear = d.year := if_neg hmarch
    have hm : d.marchMonth = d.month - 3 := if_neg hmarch
    rw [hm] at hmonth
    rw [hy, hm] at hyear ⊢
    have hle := @yearStart_le_iff (y - 1 + 1) d.year
    have hlt := @yearStart_le_iff d.year (y - 1)
    have hlong := yearStart_lt (y - 1)
    unfold monthStart at *
    omega

/-- The years that are written with four digits. -/
theorem year_iff {d : Date} (h : d.Valid) :
    0 ≤ d.year ∧ d.year ≤ 9999 ↔ -719528 ≤ d.toDays ∧ d.toDays < 2932897 := by
  have hfirst := le_year_iff h 0
  have hlast := le_year_iff h 10000
  rw [show toDays ⟨0, 1, 1⟩ = -719528 by decide] at hfirst
  rw [show toDays ⟨10000, 1, 1⟩ = 2932897 by decide] at hlast
  omega

/-! ### The next day -/

/-- The date after a date, as one turns a calendar over. -/
def next (d : Date) : Date :=
  if d.day < daysInMonth d.year d.month then ⟨d.year, d.month, d.day + 1⟩
  else if d.month < 12 then ⟨d.year, d.month + 1, 1⟩
  else ⟨d.year + 1, 1, 1⟩

/-- After the last day of a month comes the first one of the next month, in the next year after
February. -/
theorem next_of_last {d : Date} (h : 1 ≤ d.month ∧ d.month ≤ 12)
    (hlast : ¬ d.day < daysInMonth d.year d.month) : d.next.day = 1 ∧
      (d.marchMonth ≤ 10 ∧ d.next.marchMonth = d.marchMonth + 1 ∧ d.next.marchYear = d.marchYear ∨
        d.marchMonth = 11 ∧ d.next.marchMonth = 0 ∧ d.next.marchYear = d.marchYear + 1) := by
  unfold next
  rw [if_neg hlast]
  split_ifs
  all_goals
    unfold marchMonth marchYear
    dsimp only
    split_ifs
    all_goals omega

theorem valid_next {d : Date} (h : d.Valid) : d.next.Valid := by
  obtain ⟨h₁, h₂, h₃, h₄⟩ := h
  have hlong : ∀ (y : Int) (m : Nat), 1 ≤ daysInMonth y m := by
    intro y m
    unfold daysInMonth
    split_ifs
    all_goals omega
  unfold next
  split_ifs with hday hyear
  · exact ⟨h₁, h₂, Nat.le_add_left 1 _, hday⟩
  · exact ⟨Nat.le_add_left 1 _, hyear, le_rfl, hlong _ _⟩
  · exact ⟨le_rfl, Nat.le_add_left 1 11, le_rfl, hlong _ _⟩

/-- **The next date falls on the next day.** -/
theorem toDays_next {d : Date} (h : d.Valid) : d.next.toDays = d.toDays + 1 := by
  obtain ⟨h₁, h₂, h₃, h₄⟩ := h
  rw [toDays_eq, toDays_eq]
  by_cases hday : d.day < daysInMonth d.year d.month
  · unfold next
    rw [if_pos hday]
    show yearStart d.marchYear + monthStart d.marchMonth + (d.day + 1 : Nat) - 719469 = _
    omega
  · have hmonth := marchMonth_bounds ⟨h₁, h₂⟩
    have hfits := (le_daysInMonth_iff ⟨h₁, h₂⟩).mp h₄
    have hlast : ¬ (monthStart d.marchMonth + (d.day + 1 : Nat) ≤ monthStart (d.marchMonth + 1) ∧
        yearStart d.marchYear + monthStart d.marchMonth + (d.day + 1 : Nat)
          ≤ yearStart (d.marchYear + 1)) :=
      mt (le_daysInMonth_iff (d := ⟨d.year, d.month, d.day + 1⟩) ⟨h₁, h₂⟩).mpr hday
    have hshort := yearStart_lt d.marchYear
    have hlong := yearStart_le d.marchYear
    obtain ⟨hfirst, hnext⟩ := next_of_last ⟨h₁, h₂⟩ hday
    rw [hfirst]
    unfold monthStart at *
    rcases hnext with ⟨hm, hm', hy⟩ | ⟨hm, hm', hy⟩
    all_goals
      rw [hm', hy]
      omega

example : toDays ⟨1970, 1, 1⟩ = 0 := by decide

end Date

end DocumentProof
