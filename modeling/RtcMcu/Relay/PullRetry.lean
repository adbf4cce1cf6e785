import RtcMcu.Lib.Along
import RtcMcu.Relay.RtpRelay

/-!
# The retries of a pull client

`Start` of `RtpPullClient` documents the delays of retries: none after more than 30 seconds without a
try, else 1, 2, 4, 8, 8, ... seconds. It hands the delay to `PostTask`, which takes it for
milliseconds, so that a retry comes that many milliseconds after the failure. Here is what `Start` and
`GetNextNode` do to one client; `start_shows` and `task_shows` say that the manager does the same.
-/

namespace RtcMcu.Relay

/-- What one client retries by: the clock in milliseconds, the members of `RtpPullClient`, when its
posted tasks are due, and when it tried so far, the last time in front. -/
structure PullRetry where
  now : Nat
  lastRetryTime : BitVec 32
  retryDelay : BitVec 32
  tasks : List Nat
  attempts : List Nat

namespace PullRetry

/-- A new client. -/
def new (now : Nat) : PullRetry where
  now := now
  lastRetryTime := 0
  retryDelay := 0
  tasks := []
  attempts := []

/-- `time(NULL)`. -/
def time (s : PullRetry) : Nat := s.now / 1000

/-- `GetNextNode` up to `evhttp_make_request`. -/
def attempt (s : PullRetry) : PullRetry :=
  { s with lastRetryTime := BitVec.ofNat 32 s.time, attempts := s.now :: s.attempts }

/-- When `Start` tries without a delay. -/
def AtOnce (s : PullRetry) : Prop :=
  s.lastRetryTime = 0 ∨ (30 : Int) < (s.time : Int) - s.lastRetryTime.toNat

instance (s : PullRetry) : Decidable s.AtOnce :=
  inferInstanceAs (Decidable (_ ∨ _))

/-- A retry is posted. -/
def post (s : PullRetry) : PullRetry :=
  let delay := RtpPullTcpManager.nextDelay s.retryDelay
  { s with retryDelay := delay, tasks := s.tasks ++ [s.now + delay.toNat] }

/-- `Start`. -/
def startWith (getNextNode : PullRetry → PullRetry) (s : PullRetry) : PullRetry :=
  if s.AtOnce then getNextNode { s with retryDelay := 0 } else s.post

/-- `GetNextNode`. As long as the request fails, `OnError` starts again. -/
def getNextNode : Nat → PullRetry → PullRetry
  | 0, s => s.attempt
  | failed + 1, s => startWith (getNextNode failed) s.attempt

/-- `Start`, for the first time or after a failure. -/
def start (failed : Nat) (s : PullRetry) : PullRetry := startWith (getNextNode failed) s

/-- What happens to a client, `wait` milliseconds after what happened before; `failed` requests fail
in a row. -/
inductive Event
  | start (wait failed : Nat)
  | task (wait failed i : Nat)

def wait (s : PullRetry) (ms : Nat) : PullRetry := { s with now := s.now + ms }

/-- The reaction. A task that is not there cannot run, nor can one before it is due. -/
def step (s : PullRetry) : Event → Except PullFault PullRetry
  | .start ms failed => .ok ((s.wait ms).start failed)
  | .task ms failed i =>
    match s.tasks[i]? with
    | none => .ok (s.wait ms)
    | some due =>
      if due ≤ s.now + ms then
        .ok (getNextNode failed { s.wait ms with tasks := s.tasks.eraseIdx i })
      else .ok (s.wait ms)

/-! ## The manager does the same -/

/-- A client of the manager stands like this. -/
structure Shows (env : PullEnv) (c : Nat) (w : RtpPullTcpManager) (s : PullRetry) : Prop where
  client : ∃ cl, w.heap c = some cl ∧ cl.lastRetryTime = s.lastRetryTime ∧
    cl.retryDelay = s.retryDelay
  now : env.now = s.now
  tasks : (w.tasks.filter fun t => t.2 = c).map Prod.fst = s.tasks

section Manager

variable {env : PullEnv} {c : Nat} {w : RtpPullTcpManager} {s : PullRetry}

theorem requestSdp_shows (h : Shows env c w s) (made : Bool) :
    ∃ w', w.requestSdp env c made = .ok w' ∧ Shows env c w' s.attempt := by
  obtain ⟨cl, hcl, -, hdelay⟩ := h.client
  have hok : w.client c = .ok cl := by rw [RtpPullTcpManager.client, hcl]
  rw [RtpPullTcpManager.requestSdp, hok, ok_bind]
  refine ⟨_, rfl, ⟨_, if_pos rfl, ?_, hdelay⟩, h.now, h.tasks⟩
  rw [attempt, time, ← h.now]
  rfl

theorem startWith_shows {next : RtpPullTcpManager → Except PullFault RtpPullTcpManager}
    {next' : PullRetry → PullRetry}
    (hnext : ∀ {w s}, Shows env c w s → ∃ w', next w = .ok w' ∧ Shows env c w' (next' s))
    (h : Shows env c w s) :
    ∃ w', RtpPullTcpManager.startWith env next w c = .ok w' ∧
      Shows env c w' (startWith next' s) := by
  obtain ⟨cl, hcl, hlast, hdelay⟩ := h.client
  have hok : w.client c = .ok cl := by rw [RtpPullTcpManager.client, hcl]
  have htime : s.time = env.time := by rw [time, ← h.now, PullEnv.time]
  have hatOnce : s.AtOnce ↔
      (cl.lastRetryTime = 0 ∨ (30 : Int) < (env.time : Int) - cl.lastRetryTime.toNat) := by
    rw [AtOnce, ← hlast, htime]
  rw [RtpPullTcpManager.startWith, hok, ok_bind, startWith, if_congr hatOnce rfl rfl]
  split
  · exact hnext ⟨⟨_, if_pos rfl, hlast, rfl⟩, h.now, h.tasks⟩
  · refine ⟨_, rfl, ⟨_, if_pos rfl, hlast, by rw [post, ← hdelay]⟩, h.now, ?_⟩
    change ((w.tasks ++ [_]).filter _).map Prod.fst = _
    rw [List.filter_append, List.map_append, h.tasks, post, ← h.now, ← hdelay]
    simp

theorem getNextNode_shows (failed : Nat) :
    ∀ {w : RtpPullTcpManager} {s : PullRetry}, Shows env c w s →
      ∃ w', RtpPullTcpManager.getNextNode env c failed w = .ok w' ∧
        Shows env c w' (getNextNode failed s) := by
  induction failed with
  | zero => exact fun h => requestSdp_shows h true
  | succ failed ih =>
    intro w s h
    obtain ⟨w₁, hrequest, h₁⟩ := requestSdp_shows h false
    rw [RtpPullTcpManager.getNextNode, hrequest, ok_bind]
    exact startWith_shows ih h₁

/-- `Start` of a client of the manager is `start`. -/
theorem start_shows (h : Shows env c w s) :
    ∃ w', w.start env c = .ok w' ∧ Shows env c w' (s.start (env.failedRequests c)) :=
  startWith_shows (getNextNode_shows _) h

/-- Where a task of the client stands among its own tasks. -/
theorem tasks_eraseIdx {tasks : List (Nat × Nat)} {i due : Nat} (hi : tasks[i]? = some (due, c)) :
    ∃ k, ((tasks.filter fun t => t.2 = c).map Prod.fst)[k]? = some due ∧
      ((tasks.eraseIdx i).filter fun t => t.2 = c).map Prod.fst =
        ((tasks.filter fun t => t.2 = c).map Prod.fst).eraseIdx k := by
  obtain ⟨hlt, hget⟩ := List.getElem?_eq_some_iff.mp hi
  have hsplit : tasks = tasks.take i ++ (due, c) :: tasks.drop (i + 1) := by
    rw [← hget, ← List.drop_eq_getElem_cons hlt, List.take_append_drop]
  have hmine : (tasks.filter fun t => t.2 = c).map Prod.fst =
      ((tasks.take i).filter fun t => t.2 = c).map Prod.fst ++
        due :: ((tasks.drop (i + 1)).filter fun t => t.2 = c).map Prod.fst := by
    conv => lhs; rw [hsplit]
    rw [List.filter_append, List.filter_cons_of_pos (by simp), List.map_append, List.map_cons]
  refine ⟨(((tasks.take i).filter fun t => t.2 = c).map Prod.fst).length, ?_, ?_⟩
  · rw [hmine, List.getElem?_append_right (Nat.le_refl _), Nat.sub_self, List.getElem?_cons_zero]
  · rw [hmine, List.eraseIdx_append_of_length_le (Nat.le_refl _), Nat.sub_self,
      List.eraseIdx_cons_zero, List.eraseIdx_eq_take_drop_succ, List.filter_append, List.map_append]

/-- A posted task of the client that the manager runs is a `task`. -/
theorem task_shows (h : Shows env c w s) {i due : Nat} (hi : w.tasks[i]? = some (due, c))
    (hdue : due ≤ env.now) :
    ∃ w' k s', w.step env (.task i) = .ok w' ∧ s.step (.task 0 (env.failedRequests c) k) = .ok s' ∧
      Shows env c w' s' := by
  obtain ⟨k, hk, herase⟩ := tasks_eraseIdx hi
  rw [h.tasks] at hk herase
  have h' : Shows env c { w with tasks := w.tasks.eraseIdx i }
      { s.wait 0 with tasks := s.tasks.eraseIdx k } := ⟨h.client, h.now, herase⟩
  obtain ⟨w', hrun, hw'⟩ := getNextNode_shows (env.failedRequests c) h'
  refine ⟨w', k, _, ?_, ?_, hw'⟩
  · simp only [RtpPullTcpManager.step, hi, if_pos hdue, hrun]
  · rw [h.now] at hdue
    simp only [step, hk, Nat.add_zero, if_pos hdue]

end Manager

/-! ## The documented delays -/

/-- The delay behind a delay, in seconds. -/
def documented (delay : Nat) : Nat := if delay = 0 then 1 else min (2 * delay) 8

/-- The documented delay the last try had to wait for. It starts again after more than 30 seconds
without a try. -/
def chainDelay : List Nat → Nat
  | t :: last :: attempts =>
    if 30000 < t - last then 0 else documented (chainDelay (last :: attempts))
  | _ => 0

/-- Tries within 30 seconds of each other keep the documented delays. -/
def Spaced : List Nat → Prop
  | t :: last :: attempts =>
    (t - last ≤ 30000 → 1000 * documented (chainDelay (last :: attempts)) ≤ t - last) ∧
      Spaced (last :: attempts)
  | _ => True

/-- The clock shows a time that `m_last_retry_time` can hold. -/
def ClockInRange (s : PullRetry) : Prop := 0 < s.time ∧ s.time < 2 ^ 32

/-- What an event has to keep to. A failure finds no retry pending; and one that is followed by a
posted retry comes so late that the milliseconds posted lead past the documented delay. No request
fails at once. -/
def Meets (s : PullRetry) : Event → Prop
  | .start ms failed =>
    (s.wait ms).ClockInRange ∧ s.tasks = [] ∧
      if (s.wait ms).AtOnce then failed = 0
      else ∀ last ∈ s.attempts.head?, last + 1000 * documented (chainDelay s.attempts) ≤
        s.now + ms + (RtpPullTcpManager.nextDelay s.retryDelay).toNat
  | .task ms failed _ => (s.wait ms).ClockInRange ∧ failed = 0

instance (s : PullRetry) : Decidable s.ClockInRange := inferInstanceAs (Decidable (_ ∧ _))

instance (s : PullRetry) : (e : Event) → Decidable (Meets s e)
  | .start _ _ => inferInstanceAs (Decidable (_ ∧ _ ∧ _))
  | .task _ _ _ => inferInstanceAs (Decidable (_ ∧ _))

/-! ## Runs -/

/-- The tries so far are spaced, the client knows when the last one was, and at most one retry is
pending, which is due late enough. -/
structure Steady (s : PullRetry) : Prop where
  spaced : Spaced s.attempts
  idle : s.attempts = [] → s.lastRetryTime = 0 ∧ s.tasks = []
  last : ∀ last ∈ s.attempts.head?, last ≤ s.now ∧ 0 < last / 1000 ∧ last / 1000 < 2 ^ 32 ∧
    s.lastRetryTime = BitVec.ofNat 32 (last / 1000)
  pending : s.tasks = [] ∨ ∃ due, s.tasks = [due] ∧ ∀ last ∈ s.attempts.head?,
    last + 1000 * documented (chainDelay s.attempts) ≤ due

theorem new_steady (now : Nat) : Steady (new now) where
  spaced := trivial
  idle _ := ⟨rfl, rfl⟩
  last _ h := by cases h
  pending := .inl rfl

variable {s : PullRetry}

theorem Steady.wait (h : Steady s) (ms : Nat) : Steady (s.wait ms) where
  spaced := h.spaced
  idle := h.idle
  last last hlast := by
    obtain ⟨hle, hrest⟩ := h.last last hlast
    exact ⟨Nat.le_add_right_of_le hle, hrest⟩
  pending := h.pending

/-- A try that is spaced, with no retry pending. -/
theorem Steady.attempt (hspaced : Spaced s.attempts) (hclock : s.ClockInRange)
    (hlate : ∀ last ∈ s.attempts.head?, 30000 < s.now - last ∨
      last + 1000 * documented (chainDelay s.attempts) ≤ s.now)
    (htasks : s.tasks = []) : Steady s.attempt where
  spaced := by
    rw [PullRetry.attempt]
    cases hattempts : s.attempts with
    | nil => trivial
    | cons last attempts =>
      rw [hattempts] at hspaced hlate
      refine ⟨fun hnear => ?_, hspaced⟩
      rcases hlate last rfl with hfar | hgap
      · exact absurd hnear (Nat.not_le_of_lt hfar)
      · omega
  idle h := by cases h
  last last hlast := by
    cases hlast
    exact ⟨Nat.le_refl _, hclock.1, hclock.2, rfl⟩
  pending := .inl htasks

/-- What `Start` goes by: more than 30 seconds on the clock are more than 30 seconds. -/
theorem Steady.atOnce (h : Steady s) (hnow : s.AtOnce) :
    ∀ last ∈ s.attempts.head?, 30000 < s.now - last := by
  intro last hlast
  obtain ⟨hle, hpos, hlt, hmember⟩ := h.last last hlast
  rw [AtOnce, time, hmember, BitVec.toNat_ofNat, Nat.mod_eq_of_lt hlt] at hnow
  rcases hnow with hzero | hlong
  · have hnat := congrArg BitVec.toNat hzero
    rw [BitVec.toNat_ofNat, Nat.mod_eq_of_lt hlt] at hnat
    exact absurd hnat (Nat.ne_of_gt hpos)
  · omega

theorem start_steady (h : Steady s) {ms failed : Nat} (hmeets : Meets s (.start ms failed)) :
    Steady ((s.wait ms).start failed) := by
  obtain ⟨hclock, htasks, hrest⟩ := hmeets
  have hwait := h.wait ms
  rw [start, startWith]
  split at hrest
  · next hnow =>
    rw [if_pos hnow, hrest]
    exact Steady.attempt h.spaced hclock (fun last hlast => .inl (hwait.atOnce hnow last hlast))
      htasks
  · next hlater =>
    rw [if_neg hlater]
    refine ⟨h.spaced, fun hnone => ?_, hwait.last, .inr ⟨_, ?_, hrest⟩⟩
    · exact absurd (Or.inl (h.idle hnone).1) hlater
    · change s.tasks ++ [_] = [_]
      rw [htasks]
      rfl

theorem task_steady (h : Steady s) {ms failed i : Nat} (hmeets : Meets s (.task ms failed i)) :
    ∃ s', s.step (.task ms failed i) = .ok s' ∧ Steady s' := by
  obtain ⟨hclock, rfl⟩ := hmeets
  rw [step]
  split
  · exact ⟨_, rfl, h.wait ms⟩
  · next due hi =>
    split
    · next hdue =>
      rcases h.pending with hnone | ⟨due', hone, hlate⟩
      · rw [hnone] at hi
        cases hi
      · rw [hone] at hi ⊢
        obtain rfl : i = 0 := by
          cases i with
          | zero => rfl
          | succ i => cases hi
        cases hi
        refine ⟨_, rfl, Steady.attempt h.spaced hclock (fun last hlast => .inr ?_) rfl⟩
        exact Nat.le_trans (hlate last hlast) hdue
    · exact ⟨_, rfl, h.wait ms⟩

theorem step_steady (h : Steady s) {e : Event} (hmeets : Meets s e) :
    ∃ s', s.step e = .ok s' ∧ Steady s' := by
  cases e with
  | start ms failed => exact ⟨_, rfl, start_steady h hmeets⟩
  | task ms failed i => exact task_steady h hmeets

theorem nextDelay_ne_zero (delay : BitVec 32) : RtpPullTcpManager.nextDelay delay ≠ 0 := by
  rw [RtpPullTcpManager.nextDelay]
  split
  · decide
  · next hpos =>
    split
    · decide
    · intro hzero
      exact hpos (by rw [hzero]; exact BitVec.le_refl _)

/-- A delay that starts again has seen more than 30 seconds without a try. -/
theorem step_restarts (h : Steady s) {e : Event} (hmeets : Meets s e) {s' : PullRetry}
    (hstep : s.step e = .ok s') (hdelay : s.retryDelay ≠ 0) (hrestart : s'.retryDelay = 0) :
    ∀ last ∈ s.attempts.head?, 30000 < s'.now - last := by
  cases e with
  | start ms failed =>
    cases hstep
    have hrest := hmeets.2.2
    rw [start, startWith] at hrestart ⊢
    split at hrest
    · next hnow =>
      rw [if_pos hnow, hrest]
      exact (h.wait ms).atOnce hnow
    · next hlater =>
      rw [if_neg hlater] at hrestart
      exact absurd hrestart (nextDelay_ne_zero _)
  | task ms failed i =>
    obtain ⟨-, rfl⟩ := hmeets
    rw [step] at hstep
    split at hstep
    · cases hstep
      exact absurd hrestart hdelay
    · split at hstep
      · cases hstep
        exact absurd hrestart hdelay
      · cases hstep
        exact absurd hrestart hdelay

/-- In every state of a run whose failures come late enough the tries are spaced as documented, and
the delay starts again only after more than 30 seconds without a try. -/
theorem pull_retries_along (now : Nat) (events : List Event)
    (h : Along step Meets (new now) events) (before after : List Event)
    (hevents : events = before ++ after) :
    ∃ s, before.foldlM step (new now) = .ok s ∧ Spaced s.attempts ∧
      ∀ e rest, after = e :: rest → ∃ s', s.step e = .ok s' ∧
        (s.retryDelay ≠ 0 → s'.retryDelay = 0 →
          ∀ last ∈ s.attempts.head?, 30000 < s'.now - last) := by
  have hrun : Coupling.Ends (fun _ => False) Steady (before.foldlM step (new now)) := by
    refine Along.prefix_run (fun s e hs he => ?_) h hevents (new_steady now)
    obtain ⟨s', hstep, hs'⟩ := step_steady hs he
    rw [hstep]
    exact hs'
  cases hs : before.foldlM step (new now) with
  | error e =>
    rw [hs] at hrun
    exact hrun.elim
  | ok s =>
    rw [hs] at hrun
    have hsteady : Steady s := hrun
    refine ⟨s, rfl, hsteady.spaced, fun e rest hafter => ?_⟩
    have hmeets := h.at_call (hevents.trans (by rw [hafter])) hs
    obtain ⟨s', hstep, -⟩ := step_steady hsteady hmeets
    exact ⟨s', hstep, fun hdelay hrestart => step_restarts hsteady hmeets hstep hdelay hrestart⟩

/-- Two failures, 3 and 2.5 seconds after the tries before them. -/
theorem pull_retries_along_slow :
    ∃ s, [.start 0 0, .start 3000 0, .task 1 0 0, .start 2500 0, .task 2 0 0].foldlM step
        (new 1000000) = .ok s ∧ Spaced s.attempts := by
  obtain ⟨s, hrun, hspaced, -⟩ :=
    pull_retries_along 1000000
      [.start 0 0, .start 3000 0, .task 1 0 0, .start 2500 0, .task 2 0 0]
      (Along.of_check (p := fun s e => decide (Meets s e)) (fun _ _ => of_decide_eq_true) _
        (by decide +kernel)) _ [] (List.append_nil _).symm
  exact ⟨s, hrun, hspaced⟩

theorem documented_bounds (delay : Nat) : 1 ≤ documented delay ∧ documented delay ≤ 8 := by
  rw [documented]
  split <;> omega

/-- A failure that comes too early breaks the spacing when its retry is run in time. -/
theorem early_failure_breaks {last : Nat} {attempts : List Nat} (htasks : s.tasks = [])
    (hattempts : s.attempts = last :: attempts) {ms : Nat} (hlater : ¬ (s.wait ms).AtOnce)
    (hearly : s.now + ms + (RtpPullTcpManager.nextDelay s.retryDelay).toNat <
      last + 1000 * documented (chainDelay s.attempts)) :
    ∃ s', [.start ms 0, .task (RtpPullTcpManager.nextDelay s.retryDelay).toNat 0 0].foldlM step s =
        .ok s' ∧ ¬ Spaced s'.attempts := by
  have hstart : (s.wait ms).start 0 = (s.wait ms).post := by rw [start, startWith, if_neg hlater]
  have hdue : (s.wait ms).post.tasks =
      [s.now + ms + (RtpPullTcpManager.nextDelay s.retryDelay).toNat] := by
    change s.tasks ++ [_] = _
    rw [htasks]
    rfl
  rw [List.foldlM_cons, step, hstart, ok_bind, List.foldlM_cons, step, hdue]
  change ∃ s', ((if _ ≤ s.now + ms + _ then _ else _) >>= fun s' => [].foldlM step s') = _ ∧ _
  rw [if_pos (Nat.le_refl _), ok_bind]
  refine ⟨_, rfl, fun hspaced => ?_⟩
  change Spaced ((s.now + ms + (RtpPullTcpManager.nextDelay s.retryDelay).toNat) :: s.attempts)
    at hspaced
  rw [hattempts] at hspaced hearly
  have hbounds := documented_bounds (chainDelay (last :: attempts))
  have hgap := hspaced.1 (by omega)
  omega

/-- A client fails a tenth of a second after its first try, and tries again in the next
millisecond. -/
theorem retry_after_a_millisecond :
    ∃ s, [.start 0 0, .start 100 0, .task 1 0 0].foldlM step (new 1000000) = .ok s ∧
      s.attempts = [1000101, 1000000] ∧ ¬ Spaced s.attempts := by
  refine ⟨_, rfl, rfl, fun hspaced => ?_⟩
  exact absurd (hspaced.1 (by decide)) (by decide)

end PullRetry

end RtcMcu.Relay
