import AkiDB.Library.Runs
import Mathlib

/-!
The rate limiter counts from the start of its window, so calls around a new start may exceed the
limit.
-/

namespace AkiDB.Coordinator
open List

def requestsPerSecond (requests elapsedMs : Nat) : Nat :=
  min (requests * 1000 / max elapsedMs 1) (2 ^ 64 - 1)

def requestsPerWindow (maxRps windowMs : Nat) : Nat :=
  if maxRps = 0 then 0 else max 1 (min (maxRps * max windowMs 1 / 1000) (2 ^ 64 - 1))

/-- Times are nanoseconds. -/
structure RateLimiter where
  count : Nat
  windowStart : Nat
  window : Nat
  maxRequests : Nat

def milliseconds (duration : Nat) : Nat :=
  max (duration / 1000000) 1 % 2 ^ 64

namespace RateLimiter

def new (maxRps window now : Nat) : RateLimiter where
  count := 0
  windowStart := now
  window := max window 1000000
  maxRequests := requestsPerWindow maxRps (milliseconds (max window 1000000))

/-- The answer of a call, with the current and the greatest rate, and the limiter after it. -/
def tryAcquire (limiter : RateLimiter) (now : Nat) : Except (Nat × Nat) Unit × RateLimiter :=
  if limiter.maxRequests = 0 then (.ok (), limiter)
  else if limiter.window ≤ now - limiter.windowStart then
    (.ok (), { limiter with windowStart := now, count := 1 })
  else if limiter.maxRequests ≤ limiter.count then
    (.error (requestsPerSecond limiter.count (milliseconds (now - limiter.windowStart)),
      requestsPerSecond limiter.maxRequests (milliseconds limiter.window)), limiter)
  else (.ok (), { limiter with count := limiter.count + 1 })

/-- Calls in a row: the latest time, and the admitted ones with the start of their window. -/
structure Run where
  limiter : RateLimiter
  now : Nat
  admitted : List (Nat × Nat)

/-- A call comes some time after the one before. -/
def Run.call (run : Run) (gap : Nat) : Run :=
  let outcome := run.limiter.tryAcquire (run.now + gap)
  ⟨outcome.2, run.now + gap, if outcome.1.isOk
    then (run.now + gap, outcome.2.windowStart) :: run.admitted else run.admitted⟩

def Run.after (maxRps window start : Nat) (gaps : List Nat) : Run :=
  gaps.foldl Run.call ⟨new maxRps window start, start, []⟩

/-- The window of the limiter is counted exactly, and no window beyond the limit. -/
structure Run.Counted (run : Run) : Prop where
  limited : 0 < run.limiter.maxRequests
  wide : 0 < run.limiter.window
  started : run.limiter.windowStart ≤ run.now
  past : ∀ call ∈ run.admitted, call.2 ≤ call.1 ∧ call.2 ≤ run.limiter.windowStart
  current : run.admitted.countP (·.2 = run.limiter.windowStart) = run.limiter.count
  few : ∀ start, run.admitted.countP (·.2 = start) ≤ run.limiter.maxRequests

theorem tryAcquire_cases {limiter : RateLimiter} (limited : 0 < limiter.maxRequests) (now : Nat)
    : limiter.window ≤ now - limiter.windowStart ∧ limiter.tryAcquire now
        = (.ok (), { limiter with windowStart := now, count := 1 })
      ∨ now - limiter.windowStart < limiter.window ∧ limiter.maxRequests ≤ limiter.count
        ∧ (∃ rates, limiter.tryAcquire now = (.error rates, limiter))
      ∨ limiter.count < limiter.maxRequests ∧ limiter.tryAcquire now
        = (.ok (), { limiter with count := limiter.count + 1 }) := by
  unfold tryAcquire
  rw [if_neg (Nat.ne_of_gt limited)]
  split_ifs with elapsed full
  · exact .inl ⟨elapsed, rfl⟩
  · exact .inr (.inl ⟨Nat.lt_of_not_le elapsed, full, _, rfl⟩)
  · exact .inr (.inr ⟨Nat.lt_of_not_le full, rfl⟩)

variable {run : Run}

/-- A call is counted in the latest window or starts one. -/
theorem Run.Counted.call (counted : run.Counted) (gap : Nat) : (run.call gap).Counted := by
  have started : run.limiter.windowStart ≤ run.now + gap :=
    counted.started.trans (Nat.le_add_right ..)
  unfold Run.call
  rcases tryAcquire_cases counted.limited (run.now + gap) with
    ⟨elapsed, answer⟩ | ⟨-, -, rates, answer⟩ | ⟨room, answer⟩
  -- a new window: it starts behind those of all calls admitted so far
  · rw [answer]
    have later : run.limiter.windowStart < run.now + gap := by
      have := counted.wide
      omega
    have fresh : run.admitted.countP (·.2 = run.now + gap) = 0 := by
      refine countP_eq_zero.mpr fun call member => ?_
      rw [decide_eq_true_eq]
      exact Nat.ne_of_lt ((counted.past call member).2.trans_lt later)
    refine ⟨counted.limited, counted.wide, le_rfl, ?_, ?_, fun start => ?_⟩
    · refine forall_mem_cons.mpr ⟨⟨le_rfl, le_rfl⟩, fun call member => ?_⟩
      exact ⟨(counted.past call member).1, (counted.past call member).2.trans started⟩
    · exact countP_cons_of_pos (by simp) |>.trans (congrArg (· + 1) fresh)
    · by_cases own : run.now + gap = start
      · subst own
        exact (countP_cons_of_pos (by simp)).trans_le (by rw [fresh]; exact counted.limited)
      · exact (countP_cons_of_neg (by simpa using own)).trans_le (counted.few start)
  -- a refusal changes nothing but the time
  · rw [answer]
    exact ⟨counted.limited, counted.wide, started, counted.past, counted.current, counted.few⟩
  · rw [answer]
    refine ⟨counted.limited, counted.wide, started, ?_, ?_, fun start => ?_⟩
    · exact forall_mem_cons.mpr ⟨⟨started, le_rfl⟩, counted.past⟩
    · exact countP_cons_of_pos (by simp) |>.trans (congrArg (· + 1) counted.current)
    · by_cases own : run.limiter.windowStart = start
      · subst own
        exact (countP_cons_of_pos (by simp)).trans_le (by rw [counted.current]; exact room)
      · exact (countP_cons_of_neg (by simpa using own)).trans_le (counted.few start)

theorem counted_after (maxRps : ℕ+) (window start : Nat) (gaps : List Nat)
    : (Run.after maxRps window start gaps).Counted := by
  refine foldlRecOn gaps Run.call ?_ fun run counted gap _ => counted.call gap
  refine ⟨?_, ?_, le_rfl, by simp, rfl, by simp⟩
  · exact Nat.lt_of_lt_of_eq (Nat.lt_of_lt_of_le Nat.one_pos (le_max_left ..))
      (if_neg maxRps.ne_zero).symm
  · exact Nat.lt_of_lt_of_le (by decide) (le_max_right ..)

/-- A call restarts the window only a whole window after every admitted call. -/
def Run.Spaced (run : Run) (gap : Nat) : Prop :=
  run.limiter.window ≤ run.now + gap - run.limiter.windowStart →
    ∀ call ∈ run.admitted, call.1 + run.limiter.window ≤ run.now + gap

/-- Calls of earlier windows were admitted a whole window before the later ones start. -/
def Run.Apart (run : Run) : Prop :=
  ∀ call ∈ run.admitted, ∀ start ∈ run.limiter.windowStart :: run.admitted.map (·.2),
    call.2 < start → call.1 + run.limiter.window ≤ start

/-- A call is counted in the latest window, or starts one that is apart from all others. -/
theorem Run.Apart.call (apart : run.Apart) (counted : run.Counted) {gap : Nat}
    (spaced : run.Spaced gap)
    : (run.call gap).Apart := by
  have latest : ∀ start ∈ run.admitted.map (·.2), start ≤ run.limiter.windowStart :=
    forall_mem_map.mpr fun call member => (counted.past call member).2
  have started := counted.started
  unfold Run.call
  rcases tryAcquire_cases counted.limited (run.now + gap) with
    ⟨elapsed, answer⟩ | ⟨-, -, rates, answer⟩ | ⟨room, answer⟩ <;> rw [answer]
  · simp only [Run.Apart, Except.isOk, Except.toBool, if_true, map_cons, forall_mem_cons] at apart ⊢
    refine ⟨⟨by omega, by omega, fun start member => ?_⟩, fun call member => ⟨?_, ?_, ?_⟩⟩
    · have := latest start member
      omega
    · exact fun _ => spaced elapsed call member
    · exact fun _ => spaced elapsed call member
    · exact (apart call member).2
  · exact apart
  · simp only [Run.Apart, Except.isOk, Except.toBool, if_true, map_cons, forall_mem_cons] at apart ⊢
    refine ⟨⟨by omega, by omega, fun start member => ?_⟩, fun call member => ?_⟩
    · have := latest start member
      omega
    · exact ⟨(apart call member).1, apart call member⟩

/-- A refusing window is full, and all its calls are recent. -/
theorem Run.Counted.of_refused (counted : run.Counted) {gap : Nat}
    (refused : (run.limiter.tryAcquire (run.now + gap)).1.isOk = false)
    : run.limiter.maxRequests
      ≤ run.admitted.countP fun call => run.now + gap < call.1 + run.limiter.window := by
  rcases tryAcquire_cases counted.limited (run.now + gap) with
    ⟨-, answer⟩ | ⟨inside, full, -⟩ | ⟨-, answer⟩
  · rw [answer] at refused
    cases refused
  · refine full.trans (counted.current ▸ countP_mono_left fun call member own => ?_)
    have := counted.past call member
    simp only [decide_eq_true_eq] at own ⊢
    omega
  · rw [answer] at refused
    cases refused

/-- Calls less than a window apart are counted in one window. -/
theorem Run.Apart.together (apart : run.Apart) (counted : run.Counted) {call other : Nat × Nat}
    (member : call ∈ run.admitted) (among : other ∈ run.admitted)
    (near : call.1 < other.1 + run.limiter.window ∧ other.1 < call.1 + run.limiter.window)
    : other.2 = call.2 := by
  have before := apart call member other.2 (mem_cons_of_mem _ (mem_map_of_mem among))
  have behind := apart other among call.2 (mem_cons_of_mem _ (mem_map_of_mem member))
  have started := counted.past call member
  have otherStarted := counted.past other among
  omega

/-- A call is refused only after as many calls as the limit, and an interval as long as the window
keeps to the limit if its calls are counted in one window. They are if every restart comes a whole
window after the calls before it. -/
theorem limited_within_each_window (maxRps : ℕ+) (window start : Nat) (gaps : List Nat)
    : let run := Run.after maxRps window start gaps
      let limiter := run.limiter
      let within := fun first => run.admitted.countP fun call =>
        first ≤ call.1 ∧ call.1 < first + limiter.window
      (∀ gap, (limiter.tryAcquire (run.now + gap)).1.isOk = false → limiter.maxRequests
          ≤ run.admitted.countP fun call => run.now + gap < call.1 + limiter.window)
      ∧ (∀ first windowStart,
        (∀ call ∈ run.admitted, first ≤ call.1 ∧ call.1 < first + limiter.window →
          call.2 = windowStart) → within first ≤ limiter.maxRequests)
      ∧ (Runs.Along Run.call Run.Spaced ⟨new maxRps window start, start, []⟩ gaps →
        ∀ first, within first ≤ limiter.maxRequests) := by
  intro run limiter within
  have counted : run.Counted := counted_after maxRps window start gaps
  have oneWindow (first windowStart : Nat) (together : ∀ call ∈ run.admitted,
      first ≤ call.1 ∧ call.1 < first + limiter.window → call.2 = windowStart)
      : within first ≤ limiter.maxRequests := by
    refine (countP_mono_left fun call member inside => ?_).trans (counted.few windowStart)
    simp only [decide_eq_true_eq] at inside ⊢
    exact together call member inside
  refine ⟨fun _ => counted.of_refused, oneWindow, fun along first => ?_⟩
  have kept : run.Counted ∧ run.Apart :=
    along.invariant (fun _ gap (kept : _ ∧ _) spaced =>
      ⟨kept.1.call gap, kept.2.call kept.1 spaced⟩) ⟨counted_after maxRps window start [], nofun⟩
  by_cases some : ∃ call ∈ run.admitted, first ≤ call.1 ∧ call.1 < first + limiter.window
  · obtain ⟨call, member, inside⟩ := some
    refine oneWindow first call.2 fun other among also => kept.2.together counted member among ?_
    change _ < _ + limiter.window ∧ _ < _ + limiter.window
    omega
  · exact oneWindow first 0 fun call member inside => absurd ⟨call, member, inside⟩ some

/-- The second call comes a whole window after the first. -/
theorem spaced_windows_limited
    : (Run.after 1000 1000000 0 [0, 1000000]).admitted.countP
        (fun call => 1 ≤ call.1 ∧ call.1 < 1 + 1000000) ≤ 1 := by
  have limited := (limited_within_each_window 1000 1000000 0 [0, 1000000]).2.2
  exact limited ⟨fun _ => by decide +kernel, fun _ => by decide +kernel, trivial⟩ 1

/-- One request in a millisecond: calls at the end of a window and the start of the next are
admitted. -/
theorem windows_meet
    : let run := Run.after 1000 1000000 0 [999999, 1]
      run.limiter.maxRequests = 1 ∧ run.limiter.window = 1000000
        ∧ run.admitted.countP (fun call => 999999 ≤ call.1 ∧ call.1 < 1999999) = 2 := by
  decide +kernel

end RateLimiter

end AkiDB.Coordinator
