import LocalDesk.Usage.DateText

/-!
# The minutes of a span

The pieces that a span is cut into, one by one: which minute each lies in, how long it lasts, and
that no number on the way leaves its type.  The monotonic time up to a point of the span is its
share of the whole, rounded down, and a minute gets the difference at its ends.  So it makes no
difference of more than a nanosecond where the samples of the clock fall.
-/

namespace LocalDesk
namespace Usage

theorem div_le_div_of_mul_le {a b c d : Nat} (hb : 0 < b) (hd : 0 < d) (h : a * d ≤ c * b) :
    a / b ≤ c / d := by
  rw [Nat.le_div_iff_mul_le hd]
  have hle : a / b * b ≤ a := Nat.div_mul_le_self a b
  have hscaled : a / b * d * b ≤ c * b := by
    calc a / b * d * b = a / b * b * d := Nat.mul_right_comm _ _ _
      _ ≤ a * d := Nat.mul_le_mul_right d hle
      _ ≤ c * b := h
  exact Nat.le_of_mul_le_mul_right hscaled hb

theorem div_le_div_succ_of_mul_le {a b c d : Nat} (hb : 0 < b) (hd : 0 < d)
    (h : a * d ≤ c * b + b * d) : a / b ≤ c / d + 1 := by
  have hsucc : (c + d) / d = c / d + 1 := Nat.add_div_right c hd
  rw [← hsucc]
  apply div_le_div_of_mul_le hb hd
  rw [Nat.add_mul, Nat.mul_comm d b]
  exact h

namespace Span

variable (span : Span)

def elapsed (at_ : Int) : Nat :=
  if at_ ≤ span.localStart then 0
  else if span.localEnd ≤ at_ then span.monotonicNs
  else span.share at_

variable {span}

theorem elapsed_start : span.elapsed span.localStart = 0 := if_pos (le_refl _)

theorem elapsed_of_end_le {at_ : Int} (hspan : span.localStart < span.localEnd)
    (h : span.localEnd ≤ at_) : span.elapsed at_ = span.monotonicNs := by
  rw [elapsed, if_neg (by omega), if_pos h]

theorem elapsed_eq_share {at_ : Int} (hspan : span.localStart < span.localEnd)
    (hlow : span.localStart ≤ at_) (hhigh : at_ ≤ span.localEnd) :
    span.elapsed at_ = span.share at_ := by
  unfold elapsed
  by_cases hstart : at_ ≤ span.localStart
  · rw [if_pos hstart, share, show (at_ - span.localStart).toNat = 0 by omega, Nat.mul_zero,
      Nat.zero_div]
  · rw [if_neg hstart]
    by_cases hend : span.localEnd ≤ at_
    · have heq : at_ = span.localEnd := le_antisymm hhigh hend
      rw [if_pos hend, share, heq, Nat.mul_div_cancel _ (by omega)]
    · rw [if_neg hend]

theorem elapsed_mono (hspan : span.localStart < span.localEnd) {a b : Int} (h : a ≤ b) :
    span.elapsed a ≤ span.elapsed b := by
  unfold elapsed
  by_cases ha : a ≤ span.localStart
  · rw [if_pos ha]
    exact Nat.zero_le _
  · rw [if_neg ha, if_neg (by omega : ¬ b ≤ span.localStart)]
    by_cases hb : span.localEnd ≤ b
    · rw [if_pos hb]
      split_ifs
      · exact Nat.le_refl _
      · exact share_le (by omega) hspan
    · rw [if_neg hb, if_neg (by omega)]
      exact share_mono h

theorem cumulativeNs_elapsed {at_ : Int} {cumulative : Nat} (hspan : span.localStart < span.localEnd)
    (hlow : span.localStart ≤ at_) (hhigh : at_ ≤ span.localEnd)
    (h : span.cumulativeNs at_ = .ok cumulative) : cumulative = span.elapsed at_ := by
  unfold cumulativeNs at h
  split_ifs at h with hend
  · cases h
    rw [hend, elapsed_of_end_le hspan (le_refl _)]
  · cases h
    exact (elapsed_eq_share hspan hlow hhigh).symm

end Span

/-- What is documented of `chrono`: the start of a local minute, day and week, and that the text of
a minute names it.  A week begins on a Monday. -/
structure Calendar.Aligned (calendar : Calendar) : Prop where
  minute : ∀ {utcMs offset minute}, calendar.minute utcMs offset = some minute →
    minute.2 + offset * 1000 = (utcMs + offset * 1000) / minuteMs * minuteMs
  minuteKey : ∀ {utcMs utcMs' offset minute minute'}, calendar.minute utcMs offset = some minute →
    calendar.minute utcMs' offset = some minute' → minute.1 = minute'.1 → minute.2 = minute'.2
  day : ∀ {utcMs offset identity}, calendar.summary utcMs offset = some identity →
    identity.dayStartUtcMs + offset * 1000 =
      (utcMs + offset * 1000) / Gregorian.dayLengthMs * Gregorian.dayLengthMs
  week : ∀ {utcMs offset identity}, calendar.summary utcMs offset = some identity →
    identity.weekStartUtcMs + offset * 1000 =
      ((utcMs + offset * 1000) / Gregorian.dayLengthMs -
        Gregorian.weekday ((utcMs + offset * 1000) / Gregorian.dayLengthMs)) *
        Gregorian.dayLengthMs

theorem gregorian_minute {utcMs offset : Int} {minute : String × Int}
    (h : gregorian.minute utcMs offset = some minute) : Gregorian.minuteOf utcMs offset = minute := by
  unfold gregorian at h
  exact (Option.ite_none_right_eq_some.mp h).2 |> Option.some.inj

theorem gregorian_summary {utcMs offset : Int} {identity : SummaryIdentity}
    (h : gregorian.summary utcMs offset = some identity) :
    Gregorian.summaryOf utcMs offset = identity := by
  unfold gregorian at h
  exact (Option.ite_none_right_eq_some.mp h).2 |> Option.some.inj

theorem gregorian_aligned : gregorian.Aligned where
  minute := by
    intro utcMs offset minute h
    rw [← gregorian_minute h]
    exact Int.sub_add_cancel _ _
  minuteKey := by
    intro utcMs utcMs' offset minute minute' h h' hkey
    rw [← gregorian_minute h, ← gregorian_minute h'] at hkey ⊢
    exact Gregorian.minuteOf_injective hkey
  day := by
    intro utcMs offset identity h
    rw [← gregorian_summary h]
    exact Int.sub_add_cancel _ _
  week := by
    intro utcMs offset identity h
    rw [← gregorian_summary h]
    exact Int.sub_add_cancel _ _

/-- The part of the span in one minute: from `begins` to the end of the minute or of the span. -/
structure Span.Piece (span : Span) (calendar : Calendar) (sample : ClockSample)
    (begins : Int) (slice : BucketSlice) : Prop where
  inside : span.localStart ≤ begins ∧ begins < span.localEnd
  first : begins = span.localStart ∨ begins % minuteMs = 0
  positive : 0 < slice.durationNs
  duration : slice.durationNs = span.elapsed (slice.lastWallUtcMs + sample.utcOffsetSeconds * 1000) -
    span.elapsed begins
  last : slice.lastWallUtcMs + sample.utcOffsetSeconds * 1000 =
    min ((begins / minuteMs + 1) * minuteMs) span.localEnd
  minute : calendar.minute (begins - sample.utcOffsetSeconds * 1000) sample.utcOffsetSeconds =
    some (slice.minuteKey, slice.bucketStartUtcMs)
  summary : calendar.summary (begins - sample.utcOffsetSeconds * 1000) sample.utcOffsetSeconds =
    some ⟨slice.dayKey, slice.weekKey, slice.dayStartUtcMs, slice.weekStartUtcMs⟩

/-- The pieces of a span from a time on: none when a minute gets no time, and then those of the
next minute. -/
inductive Span.Pieces (span : Span) (calendar : Calendar) (sample : ClockSample) :
    Int → List BucketSlice → Prop
  | done {cursor : Int} (h : span.localEnd ≤ cursor) : Pieces span calendar sample cursor []
  | skip {cursor : Int} {rest : List BucketSlice} (h : cursor < span.localEnd)
    (hempty : span.elapsed (min ((cursor / minuteMs + 1) * minuteMs) span.localEnd) =
      span.elapsed cursor)
    (hrest : Pieces span calendar sample (min ((cursor / minuteMs + 1) * minuteMs) span.localEnd)
      rest) : Pieces span calendar sample cursor rest
  | piece {cursor : Int} {slice : BucketSlice} {rest : List BucketSlice}
    (hslice : span.Piece calendar sample cursor slice)
    (hrest : Pieces span calendar sample (min ((cursor / minuteMs + 1) * minuteMs) span.localEnd)
      rest) : Pieces span calendar sample cursor (slice :: rest)

def Span.Cursor (span : Span) (cursor : Int) : Prop :=
  span.localStart ≤ cursor ∧ cursor ≤ span.localEnd ∧
    (cursor = span.localStart ∨ cursor = span.localEnd ∨ cursor % minuteMs = 0)

theorem Span.Cursor.next {span : Span} {cursor : Int} (h : span.Cursor cursor)
    (hlt : cursor < span.localEnd) :
    span.Cursor (min ((cursor / minuteMs + 1) * minuteMs) span.localEnd) := by
  obtain ⟨hlow, -, -⟩ := h
  unfold minuteMs
  refine ⟨by omega, min_le_right _ _, ?_⟩
  unfold minuteMs
  omega

theorem Span.pieces_split {span : Span} {calendar : Calendar} {sample : ClockSample}
    (hspan : span.localStart < span.localEnd) {fuel : Nat} {cursor : Int} {assigned : Nat}
    {slices : List BucketSlice} (hfuel : (span.localEnd - cursor).toNat ≤ fuel)
    (hcursor : span.Cursor cursor) (hassigned : assigned = span.elapsed cursor)
    (h : span.split calendar sample fuel cursor assigned = .ok slices) :
    span.Pieces calendar sample cursor slices := by
  induction fuel generalizing cursor assigned slices with
  | zero =>
    cases h
    exact .done (by omega)
  | succ fuel ih =>
    unfold split at h
    by_cases hlt : cursor < span.localEnd
    · rw [if_pos hlt] at h
      obtain ⟨next, hnext, h⟩ := bind_ok.mp h
      obtain ⟨cumulative, hcumulative, h⟩ := bind_ok.mp h
      obtain ⟨pieces, hpieces, h⟩ := bind_ok.mp h
      obtain ⟨rest, hrest, h⟩ := bind_ok.mp h
      cases h
      have hgt := nextMinute_gt (orInvalid_ok.mp hnext)
      obtain rfl := nextMinute_eq (orInvalid_ok.mp hnext)
      have hcursor' := hcursor.next hlt
      have hcumulative := cumulativeNs_elapsed hspan hcursor'.1 hcursor'.2.1 hcumulative
      have hrest := ih (by omega) hcursor' hcumulative hrest
      unfold Calendar.sliceUnlessEmpty at hpieces
      by_cases hpos : 0 < cumulative - assigned
      · rw [if_pos hpos] at hpieces
        obtain ⟨slice, hslice, hpieces⟩ := bind_ok.mp hpieces
        cases hpieces
        obtain ⟨minute, identity, hminute, hidentity, rfl⟩ := bucketForLocalMillis_ok hslice
        apply Pieces.piece _ hrest
        have hlast : min ((cursor / minuteMs + 1) * minuteMs) span.localEnd -
            sample.utcOffsetSeconds * 1000 + sample.utcOffsetSeconds * 1000 =
            min ((cursor / minuteMs + 1) * minuteMs) span.localEnd := Int.sub_add_cancel _ _
        refine ⟨⟨hcursor.1, hlt⟩, ?_, hpos, ?_, hlast, hminute, hidentity⟩
        · obtain ⟨-, -, hstart⟩ := hcursor
          omega
        · rw [hlast, ← hcumulative, ← hassigned]
      · rw [if_neg hpos] at hpieces
        cases hpieces
        have hmono := elapsed_mono hspan (le_of_lt (lt_min hgt hlt))
        exact .skip hlt (by omega) hrest
    · rw [if_neg hlt] at h
      cases h
      exact .done (not_lt.mp hlt)

theorem exists_span {calendar : Calendar} {start finish : ClockSample} {slices : List BucketSlice}
    (h : splitIntoLocalMinutes calendar start finish = .ok slices) :
    ∃ span : Span, Consecutive start finish ∧
      span.localStart = start.wallUtcMs + start.utcOffsetSeconds * 1000 ∧
      span.localEnd = finish.wallUtcMs + start.utcOffsetSeconds * 1000 ∧
      span.monotonicNs = finish.monotonicNs - start.monotonicNs ∧
      span.localStart < span.localEnd ∧
      span.Pieces calendar start span.localStart slices := by
  obtain ⟨span, hspan, hsplit⟩ := bind_ok.mp h
  obtain ⟨hconsecutive, hstart, hend, hmono⟩ := spanBetween_ok.mp hspan
  have hstart := (checkedI64_some.mp hstart).1
  have hend := (checkedI64_some.mp hend).1
  have hlt : span.localStart < span.localEnd := by
    have hwall := hconsecutive.wall
    omega
  exact ⟨span, hconsecutive, hstart.symm, hend.symm, hmono, hlt,
    Span.pieces_split hlt (le_refl _) ⟨le_refl _, hlt.le, .inl rfl⟩ Span.elapsed_start.symm hsplit⟩

section Pieces

variable {span : Span} {calendar : Calendar} {sample : ClockSample} {cursor : Int}
  {slices : List BucketSlice}

theorem Span.Pieces.exists_piece (h : span.Pieces calendar sample cursor slices) :
    ∀ slice ∈ slices, ∃ begins, cursor ≤ begins ∧ span.Piece calendar sample begins slice := by
  induction h with
  | done h => exact fun slice hmem => absurd hmem List.not_mem_nil
  | @skip cursor rest hlt hempty hrest ih =>
    intro slice hmem
    obtain ⟨begins, hle, hpiece⟩ := ih slice hmem
    refine ⟨begins, le_trans ?_ hle, hpiece⟩
    unfold minuteMs
    omega
  | @piece cursor slice rest hslice hrest ih =>
    intro found hmem
    cases List.mem_cons.mp hmem with
    | inl heq =>
      rw [heq]
      exact ⟨cursor, le_refl _, hslice⟩
    | inr hmem =>
      obtain ⟨begins, hle, hpiece⟩ := ih found hmem
      refine ⟨begins, le_trans ?_ hle, hpiece⟩
      have hinside := hslice.inside
      unfold minuteMs
      omega

theorem Span.Piece.bucketStart (haligned : calendar.Aligned) {begins : Int} {slice : BucketSlice}
    (h : span.Piece calendar sample begins slice) :
    slice.bucketStartUtcMs + sample.utcOffsetSeconds * 1000 = begins / minuteMs * minuteMs := by
  have hminute := haligned.minute h.minute
  rw [Int.sub_add_cancel] at hminute
  exact hminute

theorem Span.Pieces.pairwise (haligned : calendar.Aligned)
    (h : span.Pieces calendar sample cursor slices) :
    slices.Pairwise fun a b =>
      a.bucketStartUtcMs < b.bucketStartUtcMs ∧ a.minuteKey ≠ b.minuteKey := by
  induction h with
  | done h => exact .nil
  | skip hlt hempty hrest ih => exact ih
  | @piece cursor slice rest hslice hrest ih =>
    refine List.pairwise_cons.mpr ⟨fun later hmem => ?_, ih⟩
    obtain ⟨begins, hle, hpiece⟩ := hrest.exists_piece later hmem
    have hstart := hslice.bucketStart haligned
    have hstart' := hpiece.bucketStart haligned
    have hinside := hpiece.inside
    have hlt : slice.bucketStartUtcMs < later.bucketStartUtcMs := by
      unfold minuteMs at hle hstart hstart'
      omega
    refine ⟨hlt, fun hkey => ?_⟩
    have hsame := haligned.minuteKey hslice.minute hpiece.minute hkey
    exact absurd hsame (ne_of_lt hlt)

def minuteNs (slices : List BucketSlice) (bucketStartUtcMs : Int) : Nat :=
  (slices.map fun slice =>
    if slice.bucketStartUtcMs = bucketStartUtcMs then slice.durationNs else 0).sum

theorem minuteNs_cons (slice : BucketSlice) (slices : List BucketSlice) (bucketStartUtcMs : Int) :
    minuteNs (slice :: slices) bucketStartUtcMs =
      (if slice.bucketStartUtcMs = bucketStartUtcMs then slice.durationNs else 0) +
        minuteNs slices bucketStartUtcMs := by
  simp [minuteNs]

theorem minuteNs_append (slices rest : List BucketSlice) (bucketStartUtcMs : Int) :
    minuteNs (slices ++ rest) bucketStartUtcMs =
      minuteNs slices bucketStartUtcMs + minuteNs rest bucketStartUtcMs := by
  simp [minuteNs]

theorem minuteNs_of_forall_ne {slices : List BucketSlice} {bucketStartUtcMs : Int}
    (h : ∀ slice ∈ slices, slice.bucketStartUtcMs ≠ bucketStartUtcMs) :
    minuteNs slices bucketStartUtcMs = 0 := by
  induction slices with
  | nil => rfl
  | cons slice slices ih =>
    rw [List.forall_mem_cons] at h
    rw [minuteNs_cons, if_neg h.1, ih h.2]

theorem Span.elapsed_min (hspan : span.localStart < span.localEnd) (at_ : Int) :
    span.elapsed (min at_ span.localEnd) = span.elapsed at_ := by
  by_cases h : at_ ≤ span.localEnd
  · rw [min_eq_left h]
  · rw [min_eq_right (by omega), elapsed_of_end_le hspan (le_refl _),
      elapsed_of_end_le hspan (by omega)]

theorem Span.Pieces.minuteNs_eq (haligned : calendar.Aligned)
    (hspan : span.localStart < span.localEnd) (h : span.Pieces calendar sample cursor slices)
    (minute : Int) :
    minuteNs slices (minute * minuteMs - sample.utcOffsetSeconds * 1000) =
      span.elapsed (max ((minute + 1) * minuteMs) cursor) -
        span.elapsed (max (minute * minuteMs) cursor) := by
  induction h with
  | @done cursor h =>
    rw [elapsed_of_end_le hspan (h.trans (le_max_right _ _)),
      elapsed_of_end_le hspan (h.trans (le_max_right _ _)), Nat.sub_self]
    rfl
  | @skip cursor rest hlt hempty hrest ih =>
    rw [elapsed_min hspan] at hempty
    rw [ih]
    -- Between the cursor and the next minute no time goes by.
    have hkept : ∀ at_ : Int, at_ % minuteMs = 0 →
        span.elapsed (max at_ (min ((cursor / minuteMs + 1) * minuteMs) span.localEnd)) =
          span.elapsed (max at_ cursor) := by
      intro at_ hat
      by_cases hle : at_ ≤ cursor
      · rw [max_eq_right hle, ← hempty, ← elapsed_min hspan ((cursor / minuteMs + 1) * minuteMs),
          max_eq_right]
        unfold minuteMs
        omega
      · have hnext : (cursor / minuteMs + 1) * minuteMs ≤ at_ := by
          unfold minuteMs at hat ⊢
          omega
        rw [max_eq_left ((min_le_left _ _).trans hnext), max_eq_left (by omega)]
    rw [hkept _ (Int.mul_emod_left _ _), hkept _ (Int.mul_emod_left _ _)]
  | @piece cursor slice rest hslice hrest ih =>
    have hstart := hslice.bucketStart haligned
    have hduration := hslice.duration
    rw [hslice.last, elapsed_min hspan] at hduration
    have hinside := hslice.inside
    rw [minuteNs_cons, ih]
    by_cases hminute : cursor / minuteMs = minute
    · -- The piece is all that the minute gets.
      have hrestNone : span.elapsed (max ((minute + 1) * minuteMs)
          (min ((cursor / minuteMs + 1) * minuteMs) span.localEnd)) =
          span.elapsed (max (minute * minuteMs)
            (min ((cursor / minuteMs + 1) * minuteMs) span.localEnd)) := by
        rw [hminute, max_eq_left (min_le_left _ _), max_eq_right, elapsed_min hspan]
        unfold minuteMs at hminute ⊢
        omega
      rw [if_pos (by rw [← hminute]; omega), hrestNone, Nat.sub_self, Nat.add_zero, hduration,
        hminute, max_eq_left, max_eq_right]
      · unfold minuteMs at hminute ⊢
        omega
      · unfold minuteMs at hminute ⊢
        omega
    · rw [if_neg (by unfold minuteMs at hstart hminute ⊢; omega), Nat.zero_add]
      by_cases hbefore : minute < cursor / minuteMs
      · rw [max_eq_right, max_eq_right, max_eq_right, max_eq_right]
        · simp
        · unfold minuteMs at hbefore ⊢
          omega
        · unfold minuteMs at hbefore ⊢
          omega
        · unfold minuteMs at hbefore ⊢
          omega
        · unfold minuteMs at hbefore ⊢
          omega
      · rw [max_eq_left, max_eq_left, max_eq_left, max_eq_left]
        · unfold minuteMs at hbefore hminute ⊢
          omega
        · unfold minuteMs at hbefore hminute ⊢
          omega
        · unfold minuteMs at hbefore hminute ⊢
          omega
        · unfold minuteMs at hbefore hminute ⊢
          omega

end Pieces

section Halves

/-! In the first part of a span that is cut at `w` of `w + u` milliseconds and at `m` of `m + n`
nanoseconds `e` milliseconds have passed, and in the second part `v` of the other `v + z`. -/

variable {m n w v z e : Nat}

theorem first_le (hw : 0 < w) (h : m * (w + (v + z)) ≤ (m + n) * w) :
    m * e / w ≤ (m + n) * e / (w + (v + z)) := by
  apply div_le_div_of_mul_le hw (by omega)
  nlinarith [Nat.mul_le_mul_right e h]

theorem le_first (hw : 0 < w) (he : e ≤ w)
    (h : (m + n) * w ≤ m * (w + (v + z)) + (w + (v + z))) :
    (m + n) * e / (w + (v + z)) ≤ m * e / w + 1 := by
  apply div_le_div_succ_of_mul_le (by omega) hw
  nlinarith [Nat.mul_le_mul_right e h, Nat.mul_le_mul_right (w + (v + z)) he]

theorem first_ge (hw : 0 < w) (h : (m + n) * w ≤ m * (w + (v + z))) :
    (m + n) * e / (w + (v + z)) ≤ m * e / w := by
  apply div_le_div_of_mul_le (by omega) hw
  nlinarith [Nat.mul_le_mul_right e h]

theorem ge_first (hw : 0 < w) (he : e ≤ w)
    (h : m * (w + (v + z)) ≤ (m + n) * w + (w + (v + z))) :
    m * e / w ≤ (m + n) * e / (w + (v + z)) + 1 := by
  apply div_le_div_succ_of_mul_le hw (by omega)
  nlinarith [Nat.mul_le_mul_right e h, Nat.mul_le_mul_right (w + (v + z)) he]

theorem second_eq (hu : 0 < v + z) : m + n * v / (v + z) = (m * (v + z) + n * v) / (v + z) := by
  rw [Nat.add_comm (m * (v + z)), Nat.add_mul_div_right _ _ hu, Nat.add_comm]

theorem second_le (hu : 0 < v + z) (h : m * (w + (v + z)) ≤ (m + n) * w) :
    m + n * v / (v + z) ≤ (m + n) * (w + v) / (w + (v + z)) := by
  rw [second_eq hu]
  apply div_le_div_of_mul_le hu (by omega)
  nlinarith [Nat.mul_le_mul_right z h]

theorem le_second (hu : 0 < v + z) (h : (m + n) * w ≤ m * (w + (v + z)) + (w + (v + z))) :
    (m + n) * (w + v) / (w + (v + z)) ≤ m + n * v / (v + z) + 1 := by
  rw [second_eq hu]
  apply div_le_div_succ_of_mul_le (by omega) hu
  nlinarith [Nat.mul_le_mul_right z h]

theorem second_ge (hu : 0 < v + z) (h : (m + n) * w ≤ m * (w + (v + z))) :
    (m + n) * (w + v) / (w + (v + z)) ≤ m + n * v / (v + z) := by
  rw [second_eq hu]
  apply div_le_div_of_mul_le (by omega) hu
  nlinarith [Nat.mul_le_mul_right z h]

theorem ge_second (hu : 0 < v + z) (h : m * (w + (v + z)) ≤ (m + n) * w + (w + (v + z))) :
    m + n * v / (v + z) ≤ (m + n) * (w + v) / (w + (v + z)) + 1 := by
  rw [second_eq hu]
  apply div_le_div_succ_of_mul_le hu (by omega)
  nlinarith [Nat.mul_le_mul_right z h]

end Halves

structure Span.Halves (first second span : Span) : Prop where
  start : first.localStart = span.localStart
  meet : second.localStart = first.localEnd
  finish : second.localEnd = span.localEnd
  monotonic : first.monotonicNs + second.monotonicNs = span.monotonicNs
  first_pos : first.localStart < first.localEnd
  second_pos : second.localStart < second.localEnd

namespace Span.Halves

variable {first second span : Span}

/-- Where the two parts meet, the clocks are on the line of the whole, up to the rounding of the
monotonic one to a nanosecond. -/
def Below (first span : Span) : Prop :=
  first.monotonicNs * (span.localEnd - span.localStart).toNat ≤
      span.monotonicNs * (first.localEnd - first.localStart).toNat ∧
    span.monotonicNs * (first.localEnd - first.localStart).toNat ≤
      first.monotonicNs * (span.localEnd - span.localStart).toNat +
        (span.localEnd - span.localStart).toNat

def Above (first span : Span) : Prop :=
  span.monotonicNs * (first.localEnd - first.localStart).toNat ≤
      first.monotonicNs * (span.localEnd - span.localStart).toNat ∧
    first.monotonicNs * (span.localEnd - span.localStart).toNat ≤
      span.monotonicNs * (first.localEnd - first.localStart).toNat +
        (span.localEnd - span.localStart).toNat

theorem elapsed_near (h : Halves first second span) (at_ : Int) :
    (Below first span → first.elapsed at_ + second.elapsed at_ ≤ span.elapsed at_ ∧
        span.elapsed at_ ≤ first.elapsed at_ + second.elapsed at_ + 1) ∧
      (Above first span → span.elapsed at_ ≤ first.elapsed at_ + second.elapsed at_ ∧
        first.elapsed at_ + second.elapsed at_ ≤ span.elapsed at_ + 1) := by
  obtain ⟨hstart, hmeet, hfinish, hmono, hfirst, hsecond⟩ := h
  have hspan : span.localStart < span.localEnd := by omega
  by_cases hbefore : at_ ≤ span.localStart
  · have hnone : span.elapsed at_ = 0 := if_pos hbefore
    have hnone' : first.elapsed at_ = 0 := if_pos (by omega)
    have hnone'' : second.elapsed at_ = 0 := if_pos (by omega)
    rw [hnone, hnone', hnone'']
    omega
  by_cases hbehind : span.localEnd ≤ at_
  · rw [elapsed_of_end_le hspan hbehind, elapsed_of_end_le hfirst (by omega),
      elapsed_of_end_le hsecond (by omega)]
    omega
  unfold Below Above
  obtain ⟨w, hw⟩ : ∃ w : Nat, (first.localEnd - first.localStart).toNat = w := ⟨_, rfl⟩
  rw [← hmono, hw]
  by_cases hin : at_ ≤ first.localEnd
  · have hzero : second.elapsed at_ = 0 := if_pos (by omega)
    rw [elapsed_eq_share hfirst (by omega) hin, hzero,
      elapsed_eq_share hspan (by omega) (by omega), share, share, hw, ← hstart, ← hmono]
    obtain ⟨e, he⟩ : ∃ e : Nat, (at_ - first.localStart).toNat = e := ⟨_, rfl⟩
    have hlength : (span.localEnd - first.localStart).toNat =
        w + (0 + (second.localEnd - second.localStart).toNat) := by omega
    rw [he, hlength]
    exact ⟨fun h => ⟨first_le (by omega) h.1, le_first (by omega) (by omega) h.2⟩,
      fun h => ⟨first_ge (by omega) h.1, ge_first (by omega) (by omega) h.2⟩⟩
  · rw [elapsed_of_end_le hfirst (by omega), elapsed_eq_share hsecond (by omega) (by omega),
      elapsed_eq_share hspan (by omega) (by omega), share, share, ← hmono, ← hstart]
    obtain ⟨v, hv⟩ : ∃ v : Nat, (at_ - second.localStart).toNat = v := ⟨_, rfl⟩
    obtain ⟨z, hz⟩ : ∃ z : Nat, (second.localEnd - at_).toNat = z := ⟨_, rfl⟩
    have hpassed : (at_ - first.localStart).toNat = w + v := by omega
    have hsecondLength : (second.localEnd - second.localStart).toNat = v + z := by omega
    have hlength : (span.localEnd - first.localStart).toNat = w + (v + z) := by omega
    rw [hv, hpassed, hsecondLength, hlength]
    exact ⟨fun h => ⟨second_le (by omega) h.1, le_second (by omega) h.2⟩,
      fun h => ⟨second_ge (by omega) h.1, ge_second (by omega) h.2⟩⟩

theorem elapsed_sub_near (h : Halves first second span) (hline : Below first span ∨ Above first span)
    {a b : Int} (hab : a ≤ b) :
    (first.elapsed b - first.elapsed a + (second.elapsed b - second.elapsed a)) ≤
        span.elapsed b - span.elapsed a + 1 ∧
      span.elapsed b - span.elapsed a ≤
        (first.elapsed b - first.elapsed a + (second.elapsed b - second.elapsed a)) + 1 := by
  have hspan : span.localStart < span.localEnd := by
    obtain ⟨hstart, hmeet, hfinish, -, hfirst, hsecond⟩ := h
    omega
  have hfirst := elapsed_mono h.first_pos hab
  have hsecond := elapsed_mono h.second_pos hab
  have hwhole := elapsed_mono hspan hab
  have ha := h.elapsed_near a
  have hb := h.elapsed_near b
  cases hline with
  | inl hbelow =>
    have ha := ha.1 hbelow
    have hb := hb.1 hbelow
    omega
  | inr habove =>
    have ha := ha.2 habove
    have hb := hb.2 habove
    omega

end Span.Halves

inductive Span.Round (span : Span) : Int → Nat → Prop
  | first : Round span span.localStart 0
  | next {cursor next : Int} {assigned cumulative : Nat} (h : Round span cursor assigned)
    (hlt : cursor < span.localEnd) (hnext : nextMinute cursor = some next)
    (hcumulative : span.cumulativeNs (min next span.localEnd) = .ok cumulative) :
    Round span (min next span.localEnd) cumulative

/-- The numbers of a round that ends at `sliceEnd` fit into their types: a difference of `i64`, a
product of `u128`, and a difference of `u64`. -/
structure Span.RoundFits (span : Span) (assigned : Nat) (sliceEnd : Int) : Prop where
  elapsedWall : 0 ≤ sliceEnd - span.localStart ∧ sliceEnd - span.localStart ≤ i64Max
  totalWall : 0 < span.localEnd - span.localStart ∧ span.localEnd - span.localStart ≤ i64Max
  product : span.monotonicNs * (sliceEnd - span.localStart).toNat < 2 ^ 128
  cumulative : ∃ cumulative, span.cumulativeNs sliceEnd = .ok cumulative ∧
    assigned ≤ cumulative ∧ cumulative ≤ u64Max

theorem Span.Round.cursor {span : Span} (hspan : span.localStart < span.localEnd) {cursor : Int}
    {assigned : Nat} (h : span.Round cursor assigned) :
    span.Cursor cursor ∧ assigned = span.elapsed cursor := by
  induction h with
  | first => exact ⟨⟨le_refl _, hspan.le, .inl rfl⟩, elapsed_start.symm⟩
  | next h hlt hnext hcumulative ih =>
    obtain rfl := nextMinute_eq hnext
    have hcursor := ih.1.next hlt
    exact ⟨hcursor, cumulativeNs_elapsed hspan hcursor.1 hcursor.2.1 hcumulative⟩

theorem Span.Round.fits {span : Span} (hspan : span.localStart < span.localEnd)
    (hfits : span.localEnd - span.localStart ≤ i64Max) (hmono : span.monotonicNs ≤ u64Max)
    {cursor next : Int} {assigned : Nat} (h : span.Round cursor assigned)
    (hlt : cursor < span.localEnd) (hnext : nextMinute cursor = some next) :
    span.RoundFits assigned (min next span.localEnd) := by
  obtain ⟨hcursor, hassigned⟩ := h.cursor hspan
  have hgt := nextMinute_gt hnext
  obtain rfl := nextMinute_eq hnext
  have hcursor' := hcursor.next hlt
  obtain ⟨cumulative, hcumulative⟩ := cumulativeNs_isOk hspan hcursor'.2.1 hmono
  have helapsed := cumulativeNs_elapsed hspan hcursor'.1 hcursor'.2.1 hcumulative
  have hle : assigned ≤ cumulative := by
    rw [hassigned, helapsed]
    exact elapsed_mono hspan (le_of_lt (lt_min hgt hlt))
  have hwhole : cumulative ≤ span.monotonicNs := by
    rw [helapsed, ← elapsed_of_end_le hspan (le_refl _)]
    exact elapsed_mono hspan hcursor'.2.1
  have hproduct : span.monotonicNs *
      (min ((cursor / minuteMs + 1) * minuteMs) span.localEnd - span.localStart).toNat ≤
        u64Max * i64Max.toNat := by
    apply Nat.mul_le_mul hmono
    have hend := hcursor'.2.1
    omega
  refine ⟨⟨?_, ?_⟩, ⟨?_, hfits⟩, lt_of_le_of_lt hproduct (by decide), cumulative, hcumulative, hle,
    hwhole.trans hmono⟩
  · have hlow := hcursor'.1
    omega
  · have hhigh := hcursor'.2.1
    omega
  · omega

/-- The range of a piece, from its begin to before its last time, in the minute, the day and the
week that it is recorded for. -/
structure BucketSlice.Inside (slice : BucketSlice) (start finish : ClockSample) : Prop where
  nonempty : max slice.bucketStartUtcMs start.wallUtcMs < slice.lastWallUtcMs
  last : slice.lastWallUtcMs = min (slice.bucketStartUtcMs + minuteMs) finish.wallUtcMs
  day : slice.dayStartUtcMs ≤ slice.bucketStartUtcMs ∧
    slice.lastWallUtcMs ≤ slice.dayStartUtcMs + Gregorian.dayLengthMs
  week : slice.weekStartUtcMs ≤ slice.bucketStartUtcMs ∧
    slice.lastWallUtcMs ≤ slice.weekStartUtcMs + 7 * Gregorian.dayLengthMs

theorem minute_in_day (localMs : Int) :
    localMs / Gregorian.dayLengthMs * Gregorian.dayLengthMs ≤ localMs / minuteMs * minuteMs ∧
      localMs / minuteMs * minuteMs + minuteMs ≤
        localMs / Gregorian.dayLengthMs * Gregorian.dayLengthMs + Gregorian.dayLengthMs := by
  unfold Gregorian.dayLengthMs minuteMs
  omega

theorem day_in_week (day : Int) :
    (day - Gregorian.weekday day) * Gregorian.dayLengthMs ≤ day * Gregorian.dayLengthMs ∧
      day * Gregorian.dayLengthMs + Gregorian.dayLengthMs ≤
        (day - Gregorian.weekday day) * Gregorian.dayLengthMs + 7 * Gregorian.dayLengthMs := by
  unfold Gregorian.dayLengthMs Gregorian.weekday
  omega

theorem Span.Piece.isInside {span : Span} {calendar : Calendar} {start finish : ClockSample}
    (haligned : calendar.Aligned)
    (hstart : span.localStart = start.wallUtcMs + start.utcOffsetSeconds * 1000)
    (hend : span.localEnd = finish.wallUtcMs + start.utcOffsetSeconds * 1000) {begins : Int}
    {slice : BucketSlice} (h : span.Piece calendar start begins slice) :
    slice.Inside start finish := by
  have hbucket := h.bucketStart haligned
  have hday : slice.dayStartUtcMs + _ = _ := haligned.day h.summary
  have hweek : slice.weekStartUtcMs + _ = _ := haligned.week h.summary
  rw [Int.sub_add_cancel] at hday hweek
  have hlast := h.last
  have hinside := h.inside
  have hfirst := h.first
  have hminuteDay := minute_in_day begins
  have hdayWeek := day_in_week (begins / Gregorian.dayLengthMs)
  have hminute : begins / minuteMs * minuteMs ≤ begins ∧
      begins < begins / minuteMs * minuteMs + minuteMs ∧
      (begins % minuteMs = 0 → begins / minuteMs * minuteMs = begins) := by
    unfold minuteMs
    omega
  rw [Int.add_mul, Int.one_mul] at hlast
  exact {
    nonempty := by omega
    last := by omega
    day := by omega
    week := by omega }

/-- A sample between two others that is less than a nanosecond off the line through them. -/
def OnLine (start mid finish : ClockSample) : Prop :=
  |((mid.monotonicNs : Int) - start.monotonicNs) * (finish.wallUtcMs - start.wallUtcMs) -
      (finish.monotonicNs - start.monotonicNs) * (mid.wallUtcMs - start.wallUtcMs)| <
    finish.wallUtcMs - start.wallUtcMs

theorem OnLine.below_or_above {start mid finish : ClockSample} {first span : Span}
    (h : OnLine start mid finish) (hfirst : start.monotonicNs < mid.monotonicNs)
    (hmono : start.monotonicNs < finish.monotonicNs)
    (hfirstMono : first.monotonicNs = mid.monotonicNs - start.monotonicNs)
    (hspanMono : span.monotonicNs = finish.monotonicNs - start.monotonicNs)
    (hfirstWall : first.localEnd - first.localStart = mid.wallUtcMs - start.wallUtcMs)
    (hspanWall : span.localEnd - span.localStart = finish.wallUtcMs - start.wallUtcMs)
    (hfirstPos : first.localStart < first.localEnd) (hspanPos : span.localStart < span.localEnd) :
    Span.Halves.Below first span ∨ Span.Halves.Above first span := by
  unfold OnLine at h
  have hm : (mid.monotonicNs : Int) - start.monotonicNs = first.monotonicNs := by omega
  have hM : (finish.monotonicNs : Int) - start.monotonicNs = span.monotonicNs := by omega
  have hw : (((first.localEnd - first.localStart).toNat : Nat) : Int) =
      first.localEnd - first.localStart := Int.toNat_of_nonneg (by omega)
  have hW : (((span.localEnd - span.localStart).toNat : Nat) : Int) =
      span.localEnd - span.localStart := Int.toNat_of_nonneg (by omega)
  rw [hm, hM, ← hfirstWall, ← hspanWall, ← hw, ← hW, abs_lt] at h
  unfold Span.Halves.Below Span.Halves.Above
  zify
  obtain ⟨hlow, hhigh⟩ := h
  rcases le_total ((first.monotonicNs : Int) * ((span.localEnd - span.localStart).toNat : Nat))
    (span.monotonicNs * ((first.localEnd - first.localStart).toNat : Nat)) with hle | hle
  · exact .inl ⟨hle, by linarith⟩
  · exact .inr ⟨hle, by linarith⟩

theorem Span.elapsed_max (span : Span) (at_ : Int) :
    span.elapsed (max at_ span.localStart) = span.elapsed at_ := by
  by_cases h : at_ ≤ span.localStart
  · rw [max_eq_right h, elapsed_start]
    exact (if_pos h).symm
  · rw [max_eq_left (by omega)]

theorem Span.Pieces.minuteNs_at {span : Span} {calendar : Calendar} {sample : ClockSample}
    {slices : List BucketSlice} (haligned : calendar.Aligned)
    (hspan : span.localStart < span.localEnd)
    (h : span.Pieces calendar sample span.localStart slices) (bucketStartUtcMs : Int) :
    minuteNs slices bucketStartUtcMs =
      if (bucketStartUtcMs + sample.utcOffsetSeconds * 1000) % minuteMs = 0 then
        span.elapsed (bucketStartUtcMs + sample.utcOffsetSeconds * 1000 + minuteMs) -
          span.elapsed (bucketStartUtcMs + sample.utcOffsetSeconds * 1000)
      else 0 := by
  split_ifs with hzero
  · have hexact := Int.ediv_mul_cancel (Int.dvd_of_emod_eq_zero hzero)
    have hminute := h.minuteNs_eq haligned hspan
      ((bucketStartUtcMs + sample.utcOffsetSeconds * 1000) / minuteMs)
    rw [elapsed_max, elapsed_max, Int.add_mul, hexact, Int.one_mul, Int.add_sub_cancel] at hminute
    exact hminute
  · apply minuteNs_of_forall_ne
    intro slice hslice heq
    obtain ⟨begins, -, hpiece⟩ := h.exists_piece slice hslice
    have hbucket := hpiece.bucketStart haligned
    rw [heq] at hbucket
    apply hzero
    rw [hbucket]
    exact Int.mul_emod_left _ _

theorem minuteNs_near {calendar : Calendar} (haligned : calendar.Aligned)
    {start mid finish : ClockSample} {slices first second : List BucketSlice}
    (hline : OnLine start mid finish) (h : splitIntoLocalMinutes calendar start finish = .ok slices)
    (hfirst : splitIntoLocalMinutes calendar start mid = .ok first)
    (hsecond : splitIntoLocalMinutes calendar mid finish = .ok second) (bucketStartUtcMs : Int) :
    minuteNs (first ++ second) bucketStartUtcMs ≤ minuteNs slices bucketStartUtcMs + 1 ∧
      minuteNs slices bucketStartUtcMs ≤ minuteNs (first ++ second) bucketStartUtcMs + 1 := by
  obtain ⟨span, hwhole, hstart, hend, hmono, hpos, hpieces⟩ := exists_span h
  obtain ⟨spanA, hA, hstartA, hendA, hmonoA, hposA, hpiecesA⟩ := exists_span hfirst
  obtain ⟨spanB, hB, hstartB, hendB, hmonoB, hposB, hpiecesB⟩ := exists_span hsecond
  have hoffset := hA.offset
  have hmonoPos := hwhole.monotonic
  have hmonoPosA := hA.monotonic
  have hmonoPosB := hB.monotonic
  rw [minuteNs_append, hpieces.minuteNs_at haligned hpos, hpiecesA.minuteNs_at haligned hposA,
    hpiecesB.minuteNs_at haligned hposB, ← hoffset]
  rw [← hoffset] at hstartB hendB
  split_ifs
  · have hhalves : Span.Halves spanA spanB span :=
      ⟨by omega, by omega, by omega, by omega, hposA, hposB⟩
    have hsides := hline.below_or_above hmonoPosA hmonoPos hmonoA hmono (by omega) (by omega) hposA hpos
    apply hhalves.elapsed_sub_near hsides
    unfold minuteMs
    omega
  · omega

/-- The pieces of a span are a partition of it: they last as long as the span, each is in a minute
of its own, and none is assigned more than there is. -/
theorem minutes_partition_span {calendar : Calendar} (haligned : calendar.Aligned)
    {start finish : ClockSample} {slices : List BucketSlice}
    (h : splitIntoLocalMinutes calendar start finish = .ok slices) :
    totalNs slices = finish.monotonicNs - start.monotonicNs ∧
      (∀ slice ∈ slices, 0 < slice.durationNs ∧ slice.Inside start finish) ∧
      slices.Pairwise (fun a b =>
        a.bucketStartUtcMs < b.bucketStartUtcMs ∧ a.minuteKey ≠ b.minuteKey) ∧
      (∀ span, spanBetween start finish = .ok span → ∀ cursor assigned next,
        span.Round cursor assigned → cursor < span.localEnd → Span.nextMinute cursor = some next →
          span.RoundFits assigned (min next span.localEnd)) ∧
      (∀ mid first second, OnLine start mid finish →
        splitIntoLocalMinutes calendar start mid = .ok first →
        splitIntoLocalMinutes calendar mid finish = .ok second → ∀ bucketStartUtcMs,
          minuteNs (first ++ second) bucketStartUtcMs ≤ minuteNs slices bucketStartUtcMs + 1 ∧
          minuteNs slices bucketStartUtcMs ≤ minuteNs (first ++ second) bucketStartUtcMs + 1) := by
  obtain ⟨hconsecutive, htotal⟩ := splitIntoLocalMinutes_total h
  obtain ⟨span, -, hstart, hend, hmono, hpos, hpieces⟩ := exists_span h
  refine ⟨htotal, ?_, hpieces.pairwise haligned, ?_, ?_⟩
  · intro slice hslice
    obtain ⟨begins, -, hpiece⟩ := hpieces.exists_piece slice hslice
    exact ⟨hpiece.positive, hpiece.isInside haligned hstart hend⟩
  · intro span' hspan' cursor assigned next hround hlt hnext
    obtain ⟨-, hstart', hend', hmono'⟩ := spanBetween_ok.mp hspan'
    have hstart' := (checkedI64_some.mp hstart').1
    have hend' := (checkedI64_some.mp hend').1
    have hwall := hconsecutive.wall
    have hfits := hconsecutive.fits
    have hle := finish.monotonic_le
    exact hround.fits (by omega) (by omega) (by omega) hlt hnext
  · intro mid first second hline hfirst hsecond bucketStartUtcMs
    exact minuteNs_near haligned hline h hfirst hsecond bucketStartUtcMs

def sundayNight : ClockSample := ⟨"boot", 0, 1767571199500, 0, "UTC", by decide⟩

def mondayMorning : ClockSample := ⟨"boot", 2000000000, 1767571201500, 0, "UTC", by decide⟩

def mondaySlices : List BucketSlice :=
  [⟨"2026-01-04T23:59+00:00", "2026-01-04", "2026-W01", "UTC", 0, 1767571140000, 1767484800000,
      1766966400000, 1767571200000, 500000000⟩,
    ⟨"2026-01-05T00:00+00:00", "2026-01-05", "2026-W02", "UTC", 0, 1767571200000, 1767571200000,
      1767571200000, 1767571201500, 1500000000⟩]

theorem split_monday :
    splitIntoLocalMinutes gregorian sundayNight mondayMorning = .ok mondaySlices := by
  rfl

theorem minutes_partition_monday :
    totalNs mondaySlices = mondayMorning.monotonicNs - sundayNight.monotonicNs ∧
      ∀ slice ∈ mondaySlices, 0 < slice.durationNs ∧ slice.Inside sundayNight mondayMorning := by
  have h := minutes_partition_span gregorian_aligned split_monday
  exact ⟨h.1, h.2.1⟩

/-- The last time of a piece is not in it: it may begin the next minute, day and week. -/
theorem last_wall_in_next_week : ∃ slice ∈ mondaySlices,
    splitIntoLocalMinutes gregorian sundayNight mondayMorning = .ok mondaySlices ∧
      slice.lastWallUtcMs = slice.bucketStartUtcMs + minuteMs ∧
      (gregorian.minute slice.lastWallUtcMs slice.utcOffsetSeconds).map Prod.fst ≠
        some slice.minuteKey ∧
      (gregorian.summary slice.lastWallUtcMs slice.utcOffsetSeconds).map SummaryIdentity.dayKey ≠
        some slice.dayKey ∧
      (gregorian.summary slice.lastWallUtcMs slice.utcOffsetSeconds).map SummaryIdentity.weekKey ≠
        some slice.weekKey := by
  refine ⟨_, List.mem_cons_self, split_monday, ?_⟩
  decide +kernel

end Usage
end LocalDesk
