import LocalDesk.Data.Machine

/-!
# Local minutes

A span between two samples of the clock is cut at the minutes of local time, and its
monotonic duration is spread over the pieces.  Nothing is lost by that: the durations
of the pieces add up to the duration of the span.

Dates come from the library `chrono`, which is a parameter here.  It may fail for times
that it cannot represent.
-/

namespace LocalDesk
namespace Usage

def minuteMs : Int := 60000

def maxWallDriftNs : Int := 5000000000

def i64Min : Int := -2 ^ 63

/-- The result of a checked operation on `i64`. -/
def checkedI64 (n : Int) : Option Int := if i64Min ≤ n ∧ n ≤ i64Max then some n else none

/-- A reading of both clocks.  The monotonic one is a `u64`. -/
structure ClockSample where
  bootId : String
  monotonicNs : Nat
  wallUtcMs : Int
  utcOffsetSeconds : Int
  timezoneId : String
  monotonic_le : monotonicNs ≤ u64Max := by decide
  deriving DecidableEq

/-- The parts of a local time that name its day and its week. -/
structure SummaryIdentity where
  dayKey : String
  weekKey : String
  dayStartUtcMs : Int
  weekStartUtcMs : Int
  deriving DecidableEq

/-- What is taken from `chrono`, each for a time in UTC and an offset in seconds: the
minute with its start, and `local_summary_identity`. -/
structure Calendar where
  minute : Int → Int → Option (String × Int)
  summary : Int → Int → Option SummaryIdentity

inductive SummaryKind where
  | daily
  | weekly
  deriving DecidableEq

structure SummaryBucket where
  kind : SummaryKind
  bucketKey : String
  timezoneId : String
  utcOffsetSeconds : Int
  bucketStartUtcMs : Int
  deriving DecidableEq

inductive BucketError where
  | bootChanged
  | monotonicRegression
  | timezoneChanged
  | wallClockRegression
  | wallClockJump
  | invalidWallTime
  deriving DecidableEq

structure BucketSlice where
  minuteKey : String
  dayKey : String
  weekKey : String
  timezoneId : String
  utcOffsetSeconds : Int
  bucketStartUtcMs : Int
  dayStartUtcMs : Int
  weekStartUtcMs : Int
  lastWallUtcMs : Int
  durationNs : Nat
  deriving DecidableEq

/-- `ok_or`. -/
def orInvalid {α : Type} (x : Option α) : Except BucketError α :=
  match x with
  | some a => .ok a
  | none => .error .invalidWallTime

namespace Calendar

variable (calendar : Calendar)

/-- `SummaryBucket::for_sample`. -/
def forSample (kind : SummaryKind) (sample : ClockSample) : Except BucketError SummaryBucket := do
  let identity ← orInvalid (calendar.summary sample.wallUtcMs sample.utcOffsetSeconds)
  match kind with
  | .daily => return ⟨.daily, identity.dayKey, sample.timezoneId, sample.utcOffsetSeconds,
      identity.dayStartUtcMs⟩
  | .weekly => return ⟨.weekly, identity.weekKey, sample.timezoneId, sample.utcOffsetSeconds,
      identity.weekStartUtcMs⟩

def bucketForLocalMillis (localMs sliceEndLocalMs : Int) (sample : ClockSample)
    (durationNs : Nat) : Except BucketError BucketSlice := do
  let utcMs ← orInvalid (checkedI64 (localMs - sample.utcOffsetSeconds * 1000))
  let minute ← orInvalid (calendar.minute utcMs sample.utcOffsetSeconds)
  let identity ← orInvalid (calendar.summary utcMs sample.utcOffsetSeconds)
  return ⟨minute.1, identity.dayKey, identity.weekKey, sample.timezoneId, sample.utcOffsetSeconds,
    minute.2, identity.dayStartUtcMs, identity.weekStartUtcMs,
    sliceEndLocalMs - sample.utcOffsetSeconds * 1000, durationNs⟩

def sliceUnlessEmpty (localMs sliceEndLocalMs : Int) (sample : ClockSample) (durationNs : Nat) :
    Except BucketError (List BucketSlice) :=
  if 0 < durationNs then do
    let slice ← calendar.bucketForLocalMillis localMs sliceEndLocalMs sample durationNs
    return [slice]
  else .ok []

end Calendar

/-- A span of local time, with what it lasted on the monotonic clock. -/
structure Span where
  localStart : Int
  localEnd : Int
  monotonicNs : Nat
  deriving DecidableEq

namespace Span

variable (span : Span)

def share (at_ : Int) : Nat :=
  span.monotonicNs * (at_ - span.localStart).toNat / (span.localEnd - span.localStart).toNat

/-- How much of the span has passed at `at_`, which is not beyond its end. -/
def cumulativeNs (at_ : Int) : Except BucketError Nat :=
  if at_ = span.localEnd then .ok span.monotonicNs
  else if span.share at_ ≤ u64Max then .ok (span.share at_)
  else .error .invalidWallTime

def nextMinute (cursor : Int) : Option Int :=
  (checkedI64 (cursor / minuteMs + 1)).bind fun minute => checkedI64 (minute * minuteMs)

/-- The loop of `split_into_local_minutes`.  Every round moves the cursor by a millisecond
at least, which bounds the rounds. -/
def split (calendar : Calendar) (sample : ClockSample) :
    Nat → Int → Nat → Except BucketError (List BucketSlice)
  | 0, _, _ => .ok []
  | fuel + 1, cursor, assigned =>
    if cursor < span.localEnd then do
      let next ← orInvalid (nextMinute cursor)
      let sliceEnd := min next span.localEnd
      let cumulative ← span.cumulativeNs sliceEnd
      let slices ← calendar.sliceUnlessEmpty cursor sliceEnd sample (cumulative - assigned)
      let rest ← split calendar sample fuel sliceEnd cumulative
      return slices ++ rest
    else .ok []

end Span

def spanBetween (start finish : ClockSample) : Except BucketError Span :=
  if start.bootId ≠ finish.bootId then .error .bootChanged
  else if finish.monotonicNs ≤ start.monotonicNs then .error .monotonicRegression
  else if start.utcOffsetSeconds ≠ finish.utcOffsetSeconds ∨
      start.timezoneId ≠ finish.timezoneId then .error .timezoneChanged
  else if (checkedI64 (finish.wallUtcMs - start.wallUtcMs)).all (· ≤ 0) then
    .error .wallClockRegression
  else if maxWallDriftNs < |(finish.wallUtcMs - start.wallUtcMs) * 1000000 -
      ((finish.monotonicNs - start.monotonicNs : Nat) : Int)| then .error .wallClockJump
  else do
    let offsetMs := start.utcOffsetSeconds * 1000
    let localStart ← orInvalid (checkedI64 (start.wallUtcMs + offsetMs))
    let localEnd ← orInvalid (checkedI64 (finish.wallUtcMs + offsetMs))
    return ⟨localStart, localEnd, finish.monotonicNs - start.monotonicNs⟩

def splitIntoLocalMinutes (calendar : Calendar) (start finish : ClockSample) :
    Except BucketError (List BucketSlice) := do
  let span ← spanBetween start finish
  span.split calendar start (span.localEnd - span.localStart).toNat span.localStart 0

def totalNs (slices : List BucketSlice) : Nat := (slices.map BucketSlice.durationNs).sum

@[simp] theorem totalNs_nil : totalNs [] = 0 := rfl

@[simp] theorem totalNs_cons (slice : BucketSlice) (slices : List BucketSlice) :
    totalNs (slice :: slices) = slice.durationNs + totalNs slices := by
  simp [totalNs]

@[simp] theorem totalNs_append (slices rest : List BucketSlice) :
    totalNs (slices ++ rest) = totalNs slices + totalNs rest := by
  simp [totalNs]

theorem bind_ok {ε α β : Type} {x : Except ε α} {f : α → Except ε β} {b : β} :
    (x >>= f) = .ok b ↔ ∃ a, x = .ok a ∧ f a = .ok b := by
  cases x with
  | ok a =>
    constructor
    · intro h
      exact ⟨a, rfl, h⟩
    · rintro ⟨a', ha, h⟩
      cases ha
      exact h
  | error e =>
    constructor
    · intro h
      cases h
    · rintro ⟨a, ha, _⟩
      cases ha

theorem bind_error {ε α β : Type} {x : Except ε α} {f : α → Except ε β} {e : ε}
    (h : (x >>= f) = .error e) : x = .error e ∨ ∃ a, x = .ok a ∧ f a = .error e := by
  cases x with
  | ok a => exact .inr ⟨a, rfl, h⟩
  | error e' =>
    cases h
    exact .inl rfl

theorem orInvalid_error {α : Type} {x : Option α} {e : BucketError} (h : orInvalid x = .error e) :
    e = .invalidWallTime := by
  cases x with
  | none =>
    cases h
    rfl
  | some a => cases h

theorem orInvalid_ok {α : Type} {x : Option α} {a : α} : orInvalid x = .ok a ↔ x = some a := by
  cases x with
  | none => exact ⟨fun h => (by cases h), fun h => by cases h⟩
  | some a' =>
    constructor
    · intro h
      cases h
      rfl
    · intro h
      cases h
      rfl

theorem checkedI64_some {n m : Int} : checkedI64 n = some m ↔ n = m ∧ i64Min ≤ n ∧ n ≤ i64Max := by
  unfold checkedI64
  split
  · next h => simp [h]
  · next h =>
    constructor
    · intro hn
      cases hn
    · rintro ⟨_, hn⟩
      exact absurd hn h

theorem sliceUnlessEmpty_total {calendar : Calendar} {localMs sliceEndLocalMs : Int}
    {sample : ClockSample} {durationNs : Nat} {slices : List BucketSlice}
    (h : calendar.sliceUnlessEmpty localMs sliceEndLocalMs sample durationNs = .ok slices) :
    totalNs slices = durationNs := by
  unfold Calendar.sliceUnlessEmpty at h
  split at h
  · obtain ⟨slice, hslice, hslices⟩ := bind_ok.mp h
    cases hslices
    obtain ⟨_, _, hslice⟩ := bind_ok.mp hslice
    obtain ⟨_, _, hslice⟩ := bind_ok.mp hslice
    obtain ⟨_, _, hslice⟩ := bind_ok.mp hslice
    cases hslice
    simp
  · next hzero =>
    cases h
    rw [totalNs_nil]
    omega

namespace Span

variable {span : Span}

theorem nextMinute_gt {cursor next : Int} (h : nextMinute cursor = some next) : cursor < next := by
  obtain ⟨minute, hminute, hnext⟩ := Option.bind_eq_some_iff.mp h
  obtain ⟨rfl, _⟩ := checkedI64_some.mp hminute
  obtain ⟨rfl, _⟩ := checkedI64_some.mp hnext
  unfold minuteMs
  omega

theorem share_mono {a b : Int} (h : a ≤ b) : span.share a ≤ span.share b := by
  have hle : (a - span.localStart).toNat ≤ (b - span.localStart).toNat := by omega
  exact Nat.div_le_div_right (Nat.mul_le_mul_left _ hle)

theorem share_le {a : Int} (h : a ≤ span.localEnd) (hspan : span.localStart < span.localEnd) :
    span.share a ≤ span.monotonicNs := by
  have hle : (a - span.localStart).toNat ≤ (span.localEnd - span.localStart).toNat := by omega
  have hpos : 0 < (span.localEnd - span.localStart).toNat := by omega
  calc span.share a
      ≤ span.monotonicNs * (span.localEnd - span.localStart).toNat /
          (span.localEnd - span.localStart).toNat :=
        Nat.div_le_div_right (Nat.mul_le_mul_left _ hle)
    _ = span.monotonicNs := Nat.mul_div_cancel _ hpos

/-- What has been assigned when the cursor is at `cursor`. -/
def Assigned (span : Span) (cursor : Int) (assigned : Nat) : Prop :=
  cursor ≤ span.localEnd ∧ (cursor < span.localEnd → assigned ≤ span.share cursor) ∧
    (cursor = span.localEnd → assigned = span.monotonicNs)

theorem cumulativeNs_assigned {cursor at_ : Int} {assigned cumulative : Nat}
    (hspan : span.localStart < span.localEnd) (h : span.Assigned cursor assigned)
    (hcursor : cursor < at_) (hat : at_ ≤ span.localEnd)
    (hcumulative : span.cumulativeNs at_ = .ok cumulative) :
    assigned ≤ cumulative ∧ span.Assigned at_ cumulative := by
  have hassigned := h.2.1 (lt_of_lt_of_le hcursor hat)
  unfold cumulativeNs at hcumulative
  split at hcumulative
  · next hend =>
    cases hcumulative
    exact ⟨hassigned.trans (share_le (hcursor.le.trans hat) hspan), hat,
      fun hlt => absurd hend hlt.ne, fun _ => rfl⟩
  · next hend =>
    split at hcumulative
    · cases hcumulative
      exact ⟨hassigned.trans (share_mono hcursor.le), hat, fun _ => le_rfl, fun heq => absurd heq hend⟩
    · cases hcumulative

theorem split_total {calendar : Calendar} {sample : ClockSample}
    (hspan : span.localStart < span.localEnd) {fuel : Nat} {cursor : Int} {assigned : Nat}
    {slices : List BucketSlice} (hfuel : (span.localEnd - cursor).toNat ≤ fuel)
    (h : span.Assigned cursor assigned)
    (hsplit : span.split calendar sample fuel cursor assigned = .ok slices) :
    totalNs slices + assigned = span.monotonicNs := by
  induction fuel generalizing cursor assigned slices with
  | zero =>
    cases hsplit
    have hend : cursor = span.localEnd := by
      have := h.1
      omega
    rw [totalNs_nil, h.2.2 hend, Nat.zero_add]
  | succ fuel ih =>
    unfold split at hsplit
    split at hsplit
    · obtain ⟨next, hnext, hsplit⟩ := bind_ok.mp hsplit
      obtain ⟨cumulative, hcumulative, hsplit⟩ := bind_ok.mp hsplit
      obtain ⟨pieces, hpieces, hsplit⟩ := bind_ok.mp hsplit
      obtain ⟨rest, hrest, hsplit⟩ := bind_ok.mp hsplit
      cases hsplit
      have hgt := nextMinute_gt (orInvalid_ok.mp hnext)
      have hcursor : cursor < min next span.localEnd := lt_min hgt ‹_›
      obtain ⟨hle, hassigned⟩ := cumulativeNs_assigned hspan h hcursor (min_le_right _ _) hcumulative
      have hrest := ih (by omega) hassigned hrest
      have hpieces := sliceUnlessEmpty_total hpieces
      rw [totalNs_append, hpieces]
      omega
    · next hnot =>
      cases hsplit
      have hend : cursor = span.localEnd := le_antisymm h.1 (not_lt.mp hnot)
      rw [totalNs_nil, h.2.2 hend, Nat.zero_add]

end Span

/-- What `split_into_local_minutes` requires of two samples. -/
structure Consecutive (start finish : ClockSample) : Prop where
  boot : start.bootId = finish.bootId
  monotonic : start.monotonicNs < finish.monotonicNs
  offset : start.utcOffsetSeconds = finish.utcOffsetSeconds
  timezone : start.timezoneId = finish.timezoneId
  wall : start.wallUtcMs < finish.wallUtcMs
  fits : finish.wallUtcMs - start.wallUtcMs ≤ i64Max
  drift : |(finish.wallUtcMs - start.wallUtcMs) * 1000000 -
    ((finish.monotonicNs - start.monotonicNs : Nat) : Int)| ≤ maxWallDriftNs

theorem advances_iff {start finish : Int} :
    (checkedI64 (finish - start)).all (· ≤ 0) = false ↔ start < finish ∧ finish - start ≤ i64Max := by
  unfold checkedI64
  split
  · simp only [Option.all_some, decide_eq_false_iff_not, not_le]
    omega
  · simp only [Option.all_none, Bool.true_eq_false, false_iff]
    unfold i64Min at *
    omega

theorem spanBetween_ok {start finish : ClockSample} {span : Span} :
    spanBetween start finish = .ok span ↔ Consecutive start finish ∧
      checkedI64 (start.wallUtcMs + start.utcOffsetSeconds * 1000) = some span.localStart ∧
      checkedI64 (finish.wallUtcMs + start.utcOffsetSeconds * 1000) = some span.localEnd ∧
      span.monotonicNs = finish.monotonicNs - start.monotonicNs := by
  unfold spanBetween
  constructor
  · intro h
    split_ifs at h with hboot hmono hzone hwall hdrift
    obtain ⟨hoffset, htimezone⟩ := not_or.mp hzone
    obtain ⟨hlt, hfits⟩ := advances_iff.mp (Bool.eq_false_iff.mpr hwall)
    obtain ⟨localStart, hstart, h⟩ := bind_ok.mp h
    obtain ⟨localEnd, hend, h⟩ := bind_ok.mp h
    cases h
    exact ⟨⟨not_not.mp hboot, not_le.mp hmono, not_not.mp hoffset, not_not.mp htimezone, hlt, hfits,
      not_lt.mp hdrift⟩, orInvalid_ok.mp hstart, orInvalid_ok.mp hend, rfl⟩
  · rintro ⟨h, hstart, hend, hmono⟩
    rw [if_neg (not_not.mpr h.boot), if_neg (not_le.mpr h.monotonic),
      if_neg (not_or.mpr ⟨not_not.mpr h.offset, not_not.mpr h.timezone⟩),
      if_neg (Bool.eq_false_iff.mp (advances_iff.mpr ⟨h.wall, h.fits⟩)), if_neg (not_lt.mpr h.drift)]
    refine bind_ok.mpr ⟨_, orInvalid_ok.mpr hstart, bind_ok.mpr ⟨_, orInvalid_ok.mpr hend, ?_⟩⟩
    rw [← hmono]
    rfl

theorem splitIntoLocalMinutes_total {calendar : Calendar} {start finish : ClockSample}
    {slices : List BucketSlice} (h : splitIntoLocalMinutes calendar start finish = .ok slices) :
    Consecutive start finish ∧ totalNs slices = finish.monotonicNs - start.monotonicNs := by
  obtain ⟨span, hspan, hsplit⟩ := bind_ok.mp h
  obtain ⟨hconsecutive, hstart, hend, hmono⟩ := spanBetween_ok.mp hspan
  obtain ⟨hstart, _⟩ := checkedI64_some.mp hstart
  obtain ⟨hend, _⟩ := checkedI64_some.mp hend
  have hlt : span.localStart < span.localEnd := by
    have := hconsecutive.wall
    omega
  have hassigned : span.Assigned span.localStart 0 :=
    ⟨hlt.le, fun _ => Nat.zero_le _, fun heq => absurd heq hlt.ne⟩
  have htotal := Span.split_total hlt le_rfl hassigned hsplit
  exact ⟨hconsecutive, by omega⟩

/-- A piece lies in one minute of local time, at the end of which it was seen last. -/
def Calendar.Cuts (calendar : Calendar) (sample : ClockSample) (slice : BucketSlice) : Prop :=
  ∃ localMs sliceEndLocalMs durationNs, localMs < sliceEndLocalMs ∧
    sliceEndLocalMs ≤ (localMs / minuteMs + 1) * minuteMs ∧
    calendar.bucketForLocalMillis localMs sliceEndLocalMs sample durationNs = .ok slice

theorem nextMinute_eq {cursor next : Int} (h : Span.nextMinute cursor = some next) :
    next = (cursor / minuteMs + 1) * minuteMs := by
  obtain ⟨minute, hminute, hnext⟩ := Option.bind_eq_some_iff.mp h
  obtain ⟨rfl, _⟩ := checkedI64_some.mp hminute
  exact (checkedI64_some.mp hnext).1.symm

theorem Span.split_cuts {span : Span} {calendar : Calendar} {sample : ClockSample} {fuel : Nat}
    {cursor : Int} {assigned : Nat} {slices : List BucketSlice}
    (h : span.split calendar sample fuel cursor assigned = .ok slices) :
    ∀ slice ∈ slices, calendar.Cuts sample slice := by
  induction fuel generalizing cursor assigned slices with
  | zero =>
    cases h
    exact fun slice hslice => absurd hslice List.not_mem_nil
  | succ fuel ih =>
    unfold split at h
    split at h
    · next hlt =>
      obtain ⟨next, hnext, h⟩ := bind_ok.mp h
      obtain ⟨cumulative, _, h⟩ := bind_ok.mp h
      obtain ⟨pieces, hpieces, h⟩ := bind_ok.mp h
      obtain ⟨rest, hrest, h⟩ := bind_ok.mp h
      cases h
      intro slice hslice
      rcases List.mem_append.mp hslice with hslice | hslice
      · unfold Calendar.sliceUnlessEmpty at hpieces
        split at hpieces
        · obtain ⟨piece, hpiece, hpieces⟩ := bind_ok.mp hpieces
          cases hpieces
          cases List.mem_singleton.mp hslice
          have hnext := orInvalid_ok.mp hnext
          refine ⟨cursor, min next span.localEnd, _, lt_min (nextMinute_gt hnext) hlt, ?_, hpiece⟩
          exact (min_le_left _ _).trans (nextMinute_eq hnext).le
        · cases hpieces
          exact absurd hslice List.not_mem_nil
      · exact ih hrest slice hslice
    · cases h
      exact fun slice hslice => absurd hslice List.not_mem_nil

theorem splitIntoLocalMinutes_cuts {calendar : Calendar} {start finish : ClockSample}
    {slices : List BucketSlice} (h : splitIntoLocalMinutes calendar start finish = .ok slices) :
    ∀ slice ∈ slices, calendar.Cuts start slice := by
  obtain ⟨span, _, hsplit⟩ := bind_ok.mp h
  exact Span.split_cuts hsplit

theorem bucketForLocalMillis_ok {calendar : Calendar} {localMs sliceEndLocalMs : Int}
    {sample : ClockSample} {durationNs : Nat} {slice : BucketSlice}
    (h : calendar.bucketForLocalMillis localMs sliceEndLocalMs sample durationNs = .ok slice) :
    ∃ minute identity,
      calendar.minute (localMs - sample.utcOffsetSeconds * 1000) sample.utcOffsetSeconds =
        some minute ∧
      calendar.summary (localMs - sample.utcOffsetSeconds * 1000) sample.utcOffsetSeconds =
        some identity ∧
      slice = ⟨minute.1, identity.dayKey, identity.weekKey, sample.timezoneId,
        sample.utcOffsetSeconds, minute.2, identity.dayStartUtcMs, identity.weekStartUtcMs,
        sliceEndLocalMs - sample.utcOffsetSeconds * 1000, durationNs⟩ := by
  obtain ⟨utcMs, hutc, h⟩ := bind_ok.mp h
  obtain ⟨rfl, _⟩ := checkedI64_some.mp (orInvalid_ok.mp hutc)
  obtain ⟨minute, hminute, h⟩ := bind_ok.mp h
  obtain ⟨identity, hidentity, h⟩ := bind_ok.mp h
  cases h
  exact ⟨minute, identity, orInvalid_ok.mp hminute, orInvalid_ok.mp hidentity, rfl⟩

theorem sliceUnlessEmpty_error {calendar : Calendar} {localMs sliceEndLocalMs : Int}
    {sample : ClockSample} {durationNs : Nat} {e : BucketError}
    (h : calendar.sliceUnlessEmpty localMs sliceEndLocalMs sample durationNs = .error e) :
    e = .invalidWallTime := by
  unfold Calendar.sliceUnlessEmpty at h
  split at h
  · rcases bind_error h with h | ⟨_, _, h⟩
    · rcases bind_error h with h | ⟨_, _, h⟩
      · exact orInvalid_error h
      · rcases bind_error h with h | ⟨_, _, h⟩
        · exact orInvalid_error h
        · rcases bind_error h with h | ⟨_, _, h⟩
          · exact orInvalid_error h
          · cases h
    · cases h
  · cases h

theorem Span.split_error {span : Span} {calendar : Calendar} {sample : ClockSample} {fuel : Nat}
    {cursor : Int} {assigned : Nat} {e : BucketError}
    (h : span.split calendar sample fuel cursor assigned = .error e) : e = .invalidWallTime := by
  induction fuel generalizing cursor assigned with
  | zero => cases h
  | succ fuel ih =>
    unfold split at h
    split at h
    · rcases bind_error h with h | ⟨next, _, h⟩
      · exact orInvalid_error h
      · rcases bind_error h with h | ⟨cumulative, _, h⟩
        · unfold cumulativeNs at h
          split_ifs at h
          cases h
          rfl
        · rcases bind_error h with h | ⟨_, _, h⟩
          · exact sliceUnlessEmpty_error h
          · rcases bind_error h with h | ⟨_, _, h⟩
            · exact ih h
            · cases h
    · cases h

theorem splitIntoLocalMinutes_regression {calendar : Calendar} {start finish : ClockSample}
    (h : splitIntoLocalMinutes calendar start finish = .error .monotonicRegression) :
    finish.monotonicNs ≤ start.monotonicNs := by
  rcases bind_error h with h | ⟨span, _, h⟩
  · by_contra hmono
    unfold spanBetween at h
    split_ifs at h
    · cases h
    · cases h
    · cases h
    · cases h
    · rcases bind_error h with h | ⟨_, _, h⟩
      · exact absurd (orInvalid_error h) (by decide)
      · rcases bind_error h with h | ⟨_, _, h⟩
        · exact absurd (orInvalid_error h) (by decide)
        · cases h
  · exact absurd (Span.split_error h) (by decide)

namespace Calendar

variable {calendar : Calendar}

def dateOfMinute (key : String) : String := String.ofList (key.toList.takeWhile (· ≠ 'T'))

/-- What is documented of the formats of `chrono`: both keys begin with the date, and the
letter that ends it in the key of a minute is not part of it. -/
def Nests (calendar : Calendar) : Prop :=
  ∀ {utcMs offset minute identity}, calendar.minute utcMs offset = some minute →
    calendar.summary utcMs offset = some identity → dateOfMinute minute.1 = identity.dayKey

def Represents (calendar : Calendar) (utcMs offset : Int) : Prop :=
  (calendar.minute utcMs offset).isSome ∧ (calendar.summary utcMs offset).isSome

/-- What is documented of `chrono`: the times it represents are an interval of some
hundred thousand years around the epoch, and an offset is less than a day.  The start of
the day that a summary needs is not after the start of the minute. -/
structure Lawful (calendar : Calendar) : Prop where
  minute : ∀ {utcMs offset : Int}, (calendar.summary utcMs offset).isSome →
    (calendar.minute utcMs offset).isSome
  convex : ∀ {a b utcMs offset : Int}, calendar.Represents a offset → calendar.Represents b offset →
    a ≤ utcMs → utcMs ≤ b → calendar.Represents utcMs offset
  bounded : ∀ {utcMs offset : Int}, calendar.Represents utcMs offset →
    |utcMs| ≤ 2 ^ 60 ∧ |offset| < 86400

theorem Represents.slice {localMs sliceEndLocalMs : Int} {sample : ClockSample} {durationNs : Nat}
    (hlawful : calendar.Lawful)
    (h : calendar.Represents (localMs - sample.utcOffsetSeconds * 1000) sample.utcOffsetSeconds) :
    ∃ slices, calendar.sliceUnlessEmpty localMs sliceEndLocalMs sample durationNs = .ok slices := by
  unfold sliceUnlessEmpty
  split
  · obtain ⟨hutc, _⟩ := hlawful.bounded h
    obtain ⟨minute, hminute⟩ := Option.isSome_iff_exists.mp h.1
    obtain ⟨identity, hidentity⟩ := Option.isSome_iff_exists.mp h.2
    have hchecked : checkedI64 (localMs - sample.utcOffsetSeconds * 1000) =
        some (localMs - sample.utcOffsetSeconds * 1000) := by
      refine checkedI64_some.mpr ⟨rfl, ?_⟩
      rw [abs_le] at hutc
      unfold i64Min i64Max
      omega
    obtain ⟨slice, hslice⟩ : ∃ slice,
        calendar.bucketForLocalMillis localMs sliceEndLocalMs sample durationNs = .ok slice := by
      simp only [bucketForLocalMillis, hchecked, orInvalid, bind, Except.bind, hminute, hidentity]
      exact ⟨_, rfl⟩
    exact ⟨[slice], bind_ok.mpr ⟨slice, hslice, rfl⟩⟩
  · exact ⟨[], rfl⟩

end Calendar

namespace Span

variable {span : Span}

theorem nextMinute_isSome {cursor : Int} (h : |cursor| ≤ 2 ^ 61) :
    ∃ next, nextMinute cursor = some next := by
  rw [abs_le] at h
  have hminute : checkedI64 (cursor / minuteMs + 1) = some (cursor / minuteMs + 1) := by
    refine checkedI64_some.mpr ⟨rfl, ?_⟩
    unfold i64Min i64Max minuteMs
    omega
  refine ⟨(cursor / minuteMs + 1) * minuteMs, Option.bind_eq_some_iff.mpr ⟨_, hminute, ?_⟩⟩
  refine checkedI64_some.mpr ⟨rfl, ?_⟩
  unfold i64Min i64Max minuteMs
  omega

theorem cumulativeNs_isOk {at_ : Int} (hspan : span.localStart < span.localEnd)
    (hat : at_ ≤ span.localEnd) (hmono : span.monotonicNs ≤ u64Max) :
    ∃ ns, span.cumulativeNs at_ = .ok ns := by
  unfold cumulativeNs
  split
  · exact ⟨_, rfl⟩
  · rw [if_pos ((share_le hat hspan).trans hmono)]
    exact ⟨_, rfl⟩

theorem split_isOk {calendar : Calendar} {sample : ClockSample} (hlawful : calendar.Lawful)
    (hspan : span.localStart < span.localEnd) (hmono : span.monotonicNs ≤ u64Max)
    (hrepresents : ∀ at_, span.localStart ≤ at_ → at_ ≤ span.localEnd →
      calendar.Represents (at_ - sample.utcOffsetSeconds * 1000) sample.utcOffsetSeconds)
    (fuel : Nat) {cursor : Int} (hcursor : span.localStart ≤ cursor) (assigned : Nat) :
    ∃ slices, span.split calendar sample fuel cursor assigned = .ok slices := by
  induction fuel generalizing cursor assigned with
  | zero => exact ⟨[], rfl⟩
  | succ fuel ih =>
    unfold split
    split
    · next hlt =>
      have hhere := hrepresents cursor hcursor hlt.le
      obtain ⟨hutc, hoffset⟩ := hlawful.bounded hhere
      obtain ⟨next, hnext⟩ : ∃ next, nextMinute cursor = some next := by
        refine nextMinute_isSome ?_
        rw [abs_le] at hutc ⊢
        rw [abs_lt] at hoffset
        omega
      have hgt := nextMinute_gt hnext
      obtain ⟨cumulative, hcumulative⟩ :=
        cumulativeNs_isOk hspan (min_le_right next span.localEnd) hmono
      obtain ⟨pieces, hpieces⟩ : ∃ pieces, calendar.sliceUnlessEmpty cursor (min next span.localEnd)
          sample (cumulative - assigned) = .ok pieces := hhere.slice hlawful
      obtain ⟨rest, hrest⟩ := ih (show span.localStart ≤ min next span.localEnd from
        hcursor.trans (le_min hgt.le hlt.le)) cumulative
      refine ⟨pieces ++ rest, bind_ok.mpr ⟨next, orInvalid_ok.mpr hnext, ?_⟩⟩
      refine bind_ok.mpr ⟨cumulative, hcumulative, bind_ok.mpr ⟨pieces, hpieces, ?_⟩⟩
      exact bind_ok.mpr ⟨rest, hrest, rfl⟩
    · exact ⟨[], rfl⟩

end Span

theorem splitIntoLocalMinutes_isOk {calendar : Calendar} {start finish : ClockSample}
    (hlawful : calendar.Lawful) (h : Consecutive start finish)
    (hstart : calendar.Represents start.wallUtcMs start.utcOffsetSeconds)
    (hfinish : calendar.Represents finish.wallUtcMs start.utcOffsetSeconds) :
    ∃ slices, splitIntoLocalMinutes calendar start finish = .ok slices := by
  have hfits : ∀ {utcMs : Int}, calendar.Represents utcMs start.utcOffsetSeconds →
      checkedI64 (utcMs + start.utcOffsetSeconds * 1000) =
        some (utcMs + start.utcOffsetSeconds * 1000) := by
    intro utcMs hutc
    obtain ⟨hutc, hoffset⟩ := hlawful.bounded hutc
    rw [abs_le] at hutc
    rw [abs_lt] at hoffset
    refine checkedI64_some.mpr ⟨rfl, ?_⟩
    unfold i64Min i64Max
    omega
  let span : Span := ⟨start.wallUtcMs + start.utcOffsetSeconds * 1000,
    finish.wallUtcMs + start.utcOffsetSeconds * 1000, finish.monotonicNs - start.monotonicNs⟩
  have hspan : spanBetween start finish = .ok span :=
    spanBetween_ok.mpr ⟨h, hfits hstart, hfits hfinish, rfl⟩
  have hlt : span.localStart < span.localEnd := by
    have := h.wall
    show start.wallUtcMs + _ < finish.wallUtcMs + _
    omega
  have hinside : ∀ at_, span.localStart ≤ at_ → at_ ≤ span.localEnd →
      calendar.Represents (at_ - start.utcOffsetSeconds * 1000) start.utcOffsetSeconds := by
    intro at_ hlow hhigh
    have hlow : start.wallUtcMs + start.utcOffsetSeconds * 1000 ≤ at_ := hlow
    have hhigh : at_ ≤ finish.wallUtcMs + start.utcOffsetSeconds * 1000 := hhigh
    exact hlawful.convex hstart hfinish (by omega) (by omega)
  obtain ⟨slices, hsplit⟩ := Span.split_isOk hlawful hlt
    ((Nat.sub_le _ _).trans finish.monotonic_le) hinside (span.localEnd - span.localStart).toNat
    le_rfl 0
  exact ⟨slices, bind_ok.mpr ⟨span, hspan, hsplit⟩⟩

end Usage
end LocalDesk
