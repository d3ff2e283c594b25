import Mathlib.Data.Int.Notation
import Mathlib.Data.Nat.Basic
import Mathlib.Tactic.Common

/-!
# The watch over drifting round trips

A stream learns its baseline once, after a while, and is then dropped if the
round trips have been above one and a half times the baseline for long enough
without a break. Times and durations are in nanoseconds. A baseline of zero is
one that has not been learned, and the threshold is the exact product.
-/

set_option autoImplicit false

namespace Aevia.Mirror.Drift

def second : ℤ := 1000000000

def baselineLearningWindow : ℤ := 60*second

def degradedSustainWindow : ℤ := 30*second

/-- What one call of the check reads: the clock and `EchoP95`. -/
structure Tick where
  now : ℤ
  echoP95 : ℤ

/-- The fields of a sink that the check reads or writes; the zero time of
`degradedStart` is none. -/
structure StreamSink where
  streamStart : ℤ
  baselineP95 : ℤ
  degradedStart : Option ℤ
  dropRequested : Bool

def newStreamSink (now : ℤ) : StreamSink := ⟨now, 0, none, false⟩

/-- Above `DriftMultiplier` times the baseline. -/
def Exceeds (baselineP95 currentP95 : ℤ) : Prop := 3*baselineP95 < 2*currentP95

instance (baselineP95 currentP95 : ℤ) : Decidable (Exceeds baselineP95 currentP95) :=
  inferInstanceAs (Decidable (3*baselineP95 < 2*currentP95))

def checkP95Drift (s : StreamSink) (tick : Tick) : StreamSink :=
  if tick.now-s.streamStart < baselineLearningWindow then s
  else if s.baselineP95 = 0 then
    if tick.echoP95 = 0 then s else { s with baselineP95 := tick.echoP95 }
  else if Exceeds s.baselineP95 tick.echoP95 then
    match s.degradedStart with
    | none => { s with degradedStart := some tick.now }
    | some start =>
      if degradedSustainWindow ≤ tick.now-start then { s with dropRequested := true } else s
  else { s with degradedStart := none }

section Steps
variable (s : StreamSink) (tick : Tick)

theorem check_streamStart : (checkP95Drift s tick).streamStart = s.streamStart := by
  unfold checkP95Drift
  split_ifs <;> first | rfl | (split <;> try split_ifs) <;> rfl

theorem check_learned (h : s.baselineP95 ≠ 0) : (checkP95Drift s tick).baselineP95 = s.baselineP95 := by
  unfold checkP95Drift
  split_ifs <;> first | rfl | (split <;> try split_ifs) <;> rfl

theorem check_learning (h : s.baselineP95 = 0) (h' : (checkP95Drift s tick).baselineP95 ≠ 0) :
    baselineLearningWindow ≤ tick.now-s.streamStart ∧ tick.echoP95 ≠ 0 ∧
    (checkP95Drift s tick).baselineP95 = tick.echoP95 := by
  unfold checkP95Drift at h' ⊢
  split_ifs at h' ⊢ <;> first | exact absurd h h' | exact ⟨by omega,by assumption,rfl⟩

theorem check_unlearned (h : s.baselineP95 = 0) :
    (checkP95Drift s tick).degradedStart = s.degradedStart := by
  unfold checkP95Drift
  split_ifs <;> rfl

theorem check_requests (h : s.dropRequested = false) (h' : (checkP95Drift s tick).dropRequested = true) :
    s.baselineP95 ≠ 0 ∧ Exceeds s.baselineP95 tick.echoP95 ∧
    ∃ start, s.degradedStart = some start ∧ degradedSustainWindow ≤ tick.now-start := by
  unfold checkP95Drift at h'
  split_ifs at h' with hearly hbaseline hzero hexceeds
  · exact absurd h' (by rw [h]; decide)
  · exact absurd h' (by rw [h]; decide)
  · exact absurd h' (by rw [h]; decide)
  · refine ⟨hbaseline, hexceeds, ?_⟩
    cases hstart : s.degradedStart with
    | none =>
      simp only [hstart] at h'
      exact absurd h' (by rw [h]; decide)
    | some start =>
      simp only [hstart] at h'
      split_ifs at h' with hlong
      · exact ⟨start,rfl,hlong⟩
      · exact absurd h' (by rw [h]; decide)
  · exact absurd h' (by rw [h]; decide)

section Monitoring
variable (hlearned : s.baselineP95 ≠ 0) (hold : baselineLearningWindow ≤ tick.now-s.streamStart)

include hlearned hold in
theorem check_degradedStart : (checkP95Drift s tick).degradedStart =
    if Exceeds s.baselineP95 tick.echoP95 then s.degradedStart.or (some tick.now) else none := by
  rw [checkP95Drift, if_neg (by omega), if_neg hlearned]
  split_ifs
  · cases hstart : s.degradedStart with
    | none => rfl
    | some start =>
      show (if _ then _ else s : StreamSink).degradedStart = some start
      split_ifs <;> first | exact hstart | rfl
  · rfl

include hlearned hold in
theorem check_sustained (hexceeds : Exceeds s.baselineP95 tick.echoP95) (start : ℤ)
    (hstart : s.degradedStart = some start) (hlong : degradedSustainWindow ≤ tick.now-start) :
    (checkP95Drift s tick).dropRequested = true := by
  rw [checkP95Drift, if_neg (by omega), if_neg hlearned, if_pos hexceeds]
  simp only [hstart]
  rw [if_pos hlong]

end Monitoring

end Steps

section Runs
variable (streamStart : ℤ) (ticks : ℕ → Tick)

def Ascending : Prop := ∀ ⦃m n : ℕ⦄, m ≤ n → (ticks m).now ≤ (ticks n).now

def after : ℕ → StreamSink
  | 0 => newStreamSink streamStart
  | n+1 => checkP95Drift (after n) (ticks n)

def Locks (i : ℕ) : Prop :=
  (after streamStart ticks i).baselineP95 ≠ (after streamStart ticks (i+1)).baselineP95

def Requests (t : ℕ) : Prop :=
  (after streamStart ticks t).dropRequested = false ∧
    (after streamStart ticks (t+1)).dropRequested = true

/-- Every tick from the first to the last is above the threshold, for long enough. -/
structure Stretch (baselineP95 : ℤ) (s t : ℕ) : Prop where
  ordered : s ≤ t
  long : degradedSustainWindow ≤ (ticks t).now-(ticks s).now
  unbroken : ∀ m, s ≤ m → m ≤ t → Exceeds baselineP95 (ticks m).echoP95

theorem after_streamStart (n : ℕ) : (after streamStart ticks n).streamStart = streamStart := by
  induction n with
  | zero => rfl
  | succ n ih => rw [after, check_streamStart, ih]

theorem after_learned (m n : ℕ) (hmn : m ≤ n) (h : (after streamStart ticks m).baselineP95 ≠ 0) :
    (after streamStart ticks n).baselineP95 = (after streamStart ticks m).baselineP95 := by
  induction n, hmn using Nat.le_induction with
  | base => rfl
  | succ n _ ih => rw [after, check_learned _ _ (by rwa [ih]), ih]

theorem lock_facts (i : ℕ) (h : Locks streamStart ticks i) :
    (after streamStart ticks i).baselineP95 = 0 ∧
    baselineLearningWindow ≤ (ticks i).now-streamStart ∧ (ticks i).echoP95 ≠ 0 ∧
    (after streamStart ticks (i+1)).baselineP95 = (ticks i).echoP95 := by
  have hzero : (after streamStart ticks i).baselineP95 = 0 := by
    by_contra hne
    exact h (check_learned _ (ticks i) hne).symm
  have hset : (after streamStart ticks (i+1)).baselineP95 ≠ 0 := by
    rw [← hzero]
    exact Ne.symm h
  have hfacts := check_learning _ (ticks i) hzero hset
  rw [after_streamStart] at hfacts
  exact ⟨hzero,hfacts⟩

theorem unlearned_marker (n : ℕ) (h : (after streamStart ticks n).baselineP95 = 0) :
    (after streamStart ticks n).degradedStart = none := by
  induction n with
  | zero => rfl
  | succ n ih =>
    have hbefore : (after streamStart ticks n).baselineP95 = 0 := by
      by_contra hne
      exact hne ((check_learned _ (ticks n) hne).symm.trans h)
    rw [after, check_unlearned _ _ hbefore, ih hbefore]

theorem lock_exists (n : ℕ) (h : (after streamStart ticks n).baselineP95 ≠ 0) :
    ∃ i < n, Locks streamStart ticks i := by
  induction n with
  | zero => exact absurd rfl h
  | succ n ih =>
    by_cases hn : (after streamStart ticks n).baselineP95 = 0
    · refine ⟨n, Nat.lt_succ_self n, ?_⟩
      unfold Locks
      rw [hn]
      exact Ne.symm h
    · obtain ⟨i, hi, hlock⟩ := ih hn
      exact ⟨i,Nat.lt_succ_of_lt hi,hlock⟩

section Locked
variable (hclock : Ascending ticks) (i : ℕ) (hlock : Locks streamStart ticks i)

include hlock in
theorem locked_baseline (n : ℕ) (hn : i < n) :
    (after streamStart ticks n).baselineP95 = (ticks i).echoP95 := by
  obtain ⟨-, -, hne, hset⟩ := lock_facts streamStart ticks i hlock
  rw [after_learned streamStart ticks (i+1) n hn (by rwa [hset]), hset]

include hlock in
theorem locked_once (j : ℕ) (hj : Locks streamStart ticks j) : j = i := by
  have hi := (lock_facts streamStart ticks i hlock)
  have hj' := (lock_facts streamStart ticks j hj)
  by_contra hne
  rcases Nat.lt_or_gt_of_ne hne with h | h
  · exact hj'.2.2.1 ((locked_baseline streamStart ticks j hj i h).symm.trans hi.1)
  · exact hi.2.2.1 ((locked_baseline streamStart ticks i hlock j h).symm.trans hj'.1)

include hclock hlock in
theorem locked_degradedStart (n : ℕ) (hn : i < n) :
    (after streamStart ticks (n+1)).degradedStart =
      if Exceeds (ticks i).echoP95 (ticks n).echoP95 then
        (after streamStart ticks n).degradedStart.or (some (ticks n).now)
      else none := by
  obtain ⟨-, hwindow, hne, -⟩ := lock_facts streamStart ticks i hlock
  have hbaseline := locked_baseline streamStart ticks i hlock n hn
  have hmono : (ticks i).now ≤ (ticks n).now := hclock (Nat.le_of_lt hn)
  have hcheck := check_degradedStart (after streamStart ticks n) (ticks n) (by rwa [hbaseline])
    (by rw [after_streamStart]; omega)
  rwa [hbaseline] at hcheck

include hclock hlock in
/-- The marker is the time of a tick since the lock, and the ticks from there on
have all been above the threshold. -/
theorem marker_stretch (n : ℕ) (hn : i < n) (start : ℤ)
    (hstart : (after streamStart ticks n).degradedStart = some start) :
    ∃ s, i < s ∧ s < n ∧ (ticks s).now = start ∧
      ∀ m, s ≤ m → m < n → Exceeds (ticks i).echoP95 (ticks m).echoP95 := by
  induction n, hn using Nat.le_induction with
  | base =>
    obtain ⟨hzero, -⟩ := lock_facts streamStart ticks i hlock
    have hnone : (after streamStart ticks (i+1)).degradedStart = none := by
      rw [after, check_unlearned _ _ hzero, unlearned_marker streamStart ticks i hzero]
    rw [hnone] at hstart
    cases hstart
  | succ n hn ih =>
    rw [locked_degradedStart streamStart ticks hclock i hlock n hn] at hstart
    split_ifs at hstart with hexceeds
    cases hprev : (after streamStart ticks n).degradedStart with
    | none =>
      -- the stretch begins with this tick
      rw [hprev] at hstart
      refine ⟨n, hn, Nat.lt_succ_self n, Option.some.inj hstart, ?_⟩
      intro m hnm hmn
      obtain rfl : m = n := by omega
      exact hexceeds
    | some start' =>
      rw [hprev] at hstart
      obtain rfl : start' = start := Option.some.inj hstart
      obtain ⟨s, his, hsn, hnow, hall⟩ := ih hprev
      refine ⟨s, his, by omega, hnow, ?_⟩
      intro m hsm hmn
      by_cases hm : m = n
      · rw [hm]
        exact hexceeds
      · exact hall m hsm (by omega)

include hclock hlock in
theorem stretch_marker (s n : ℕ) (his : i < s) (hsn : s ≤ n)
    (hall : ∀ m, s ≤ m → m ≤ n → Exceeds (ticks i).echoP95 (ticks m).echoP95) :
    ∃ start, (after streamStart ticks (n+1)).degradedStart = some start ∧ start ≤ (ticks s).now := by
  induction n, hsn using Nat.le_induction with
  | base =>
    rw [locked_degradedStart streamStart ticks hclock i hlock s his,
      if_pos (hall s (Nat.le_refl s) (Nat.le_refl s))]
    cases hprev : (after streamStart ticks s).degradedStart with
    | none => exact ⟨_,rfl,Int.le_refl _⟩
    | some start =>
      obtain ⟨r, -, hrs, rfl, -⟩ := marker_stretch streamStart ticks hclock i hlock s his start hprev
      exact ⟨_,rfl,hclock (Nat.le_of_lt hrs)⟩
  | succ n hsn ih =>
    obtain ⟨start, hstart, hle⟩ := ih (fun m hsm hmn => hall m hsm (by omega))
    refine ⟨start, ?_, hle⟩
    rw [locked_degradedStart streamStart ticks hclock i hlock (n+1) (by omega),
      if_pos (hall (n+1) (by omega) (Nat.le_refl _)), hstart]
    rfl

end Locked

/-- A drop is requested at the end of a stretch that is long enough, and by the
end of every such stretch. -/
theorem drift_drop_sustained (hclock : Ascending ticks) :
    (∀ t, Requests streamStart ticks t →
      ∃ i, Locks streamStart ticks i ∧ (∀ j, Locks streamStart ticks j → j = i) ∧
        baselineLearningWindow ≤ (ticks i).now-streamStart ∧ (ticks i).echoP95 ≠ 0 ∧
        (after streamStart ticks (i+1)).baselineP95 = (ticks i).echoP95 ∧
        ∃ s, i < s ∧ Stretch ticks (ticks i).echoP95 s t) ∧
    ∀ i s t, Locks streamStart ticks i → i < s → Stretch ticks (ticks i).echoP95 s t →
      (after streamStart ticks (t+1)).dropRequested = true := by
  constructor
  · intro t ⟨hbefore, hafter⟩
    obtain ⟨hlearned, hexceeds, start, hstart, hlong⟩ := check_requests _ (ticks t) hbefore hafter
    obtain ⟨i, hit, hlock⟩ := lock_exists streamStart ticks t hlearned
    obtain ⟨-, hwindow, hne, hset⟩ := lock_facts streamStart ticks i hlock
    refine ⟨i, hlock, locked_once streamStart ticks i hlock, hwindow, hne, hset, ?_⟩
    obtain ⟨s, his, hst, rfl, hall⟩ :=
      marker_stretch streamStart ticks hclock i hlock t hit start hstart
    refine ⟨s, his, Nat.le_of_lt hst, hlong, ?_⟩
    intro m hsm hmt
    by_cases hm : m = t
    · rw [hm, ← locked_baseline streamStart ticks i hlock t hit]
      exact hexceeds
    · exact hall m hsm (by omega)
  · intro i s t hlock his hstretch
    obtain ⟨-, hwindow, hne, -⟩ := lock_facts streamStart ticks i hlock
    obtain ⟨hst, hlong, hall⟩ := hstretch
    -- the window is longer than no time at all, so the stretch has a tick before the last
    have hlt : s < t := by
      by_contra h
      obtain rfl : s = t := by omega
      rw [Int.sub_self] at hlong
      revert hlong
      decide
    obtain ⟨t, rfl⟩ : ∃ r, t = r+1 := ⟨t-1,by omega⟩
    obtain ⟨start, hstart, hle⟩ := stretch_marker streamStart ticks hclock i hlock s t his (by omega)
      (fun m hsm hmt => hall m hsm (by omega))
    have hbaseline := locked_baseline streamStart ticks i hlock (t+1) (by omega)
    have hmono : (ticks i).now ≤ (ticks (t+1)).now := hclock (by omega : i ≤ t+1)
    apply check_sustained _ _ (by rwa [hbaseline]) (by rw [after_streamStart]; omega) _ start hstart
    · omega
    · rw [hbaseline]
      exact hall (t+1) (by omega) (Nat.le_refl _)

end Runs

section Sample

def doubling (n : ℕ) : Tick := ⟨(60+10*n)*second, if n = 0 then 100 else 200⟩

theorem doubling_clock : Ascending doubling := by
  intro m n hmn
  show (60+10*(m : ℤ))*second ≤ (60+10*(n : ℤ))*second
  unfold second
  omega

instance (streamStart : ℤ) (ticks : ℕ → Tick) (t : ℕ) : Decidable (Requests streamStart ticks t) :=
  inferInstanceAs (Decidable (_ ∧ _))

theorem doubling_dropped : Requests 0 doubling 4 ∧
    ∃ i s, Locks 0 doubling i ∧ i < s ∧ Stretch doubling (doubling i).echoP95 s 4 := by
  have hrequests : Requests 0 doubling 4 := by decide
  obtain ⟨i, hlock, -, -, -, -, s, his, hstretch⟩ :=
    (drift_drop_sustained 0 doubling doubling_clock).1 4 hrequests
  exact ⟨hrequests,i,s,hlock,his,hstretch⟩

end Sample

end Aevia.Mirror.Drift
