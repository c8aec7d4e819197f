import XCoin.Pool.Job
import XCoin.Pool.Pplns

/-!
# Sessions on the event loop

The handlers of the pool run on one event loop and give way only where they wait.  A session
answers one request at a time, so at most one `mining.submit` of a session is under way; between
its waits other handlers run, and they may call `notify` on the same session.

The stages of a submission are the waits of `dispatch` after `validate` was called.  An exception
ends a submission: `self.jobs[jid]` when the job is gone, or `notify` when it cannot build a
coinbase.  Sends and calls of the node do not raise.

What retunes a session's difficulty (`observe_share` looks at clocks and floats) is given by the
event; where the difficulty is changed the handler sends it and then calls `notify`, as in the
source.
-/

namespace XCoin.Pool

variable (state : LoopState) (dsha256 : Dsha256) (settings : Settings) (window : PplnsWindow)

/-! ## State -/

/-- The live template as `notify` reads it, with the branch beside it. -/
structure LiveTemplate where
  prevLe : Bytes
  coinbasevalue : ℕ
  height : ℕ
  version : ℕ
  bits : ℕ
  mintime : ℕ
  wc : Bytes
  branchLe : List Bytes
  txs : List Bytes
deriving DecidableEq, Repr

/-- The settings that `notify` reads; `pplns` is the mode. -/
structure Settings where
  regtest : Bool
  pplns : Bool
  feeBp : ℕ
  feeSpk : Option Bytes
  minOut : ℕ
  maxOutputs : ℕ
deriving DecidableEq, Repr

/-- Where an accepted submission waits. -/
inductive Stage where
  /-- for the proof-of-work hash -/
  | validating
  /-- for the reply to be sent -/
  | replying (verdict : Verdict)
  /-- in `apply_diff`, for the difficulty to be sent -/
  | retuning (verdict : Verdict)
  /-- in `apply_diff`, for the new job to be sent -/
  | renotifying (verdict : Verdict)
deriving DecidableEq, Repr

/-- A `mining.submit` under way. -/
structure Submission where
  jid : ℕ
  pending : Pending
  stage : Stage
deriving DecidableEq, Repr

/-- A miner's connection. -/
structure Session where
  en1 : Bytes
  en2Size : ℕ := 4
  spk : Option Bytes := none
  diff : ℚ
  jobs : JobTable := []
  jobn : ℕ := 0
  inFlight : Option Submission := none
deriving DecidableEq, Repr

/-- A share that was added to the window. -/
structure Credit where
  spk : Bytes
  header : Bytes
  shareDiff : ℚ
deriving DecidableEq, Repr

/-- The pool's event loop. -/
structure LoopState where
  settings : Settings
  window : PplnsWindow
  tmpl : Option LiveTemplate := none
  sessions : List Session := []
  /-- what was added to the PPLNS window, oldest first -/
  credits : List Credit := []
  /-- the blocks that `validate` returned -/
  found : List Bytes := []
  /-- the calls of `submitblock` -/
  submitted : List Bytes := []
  /-- blocks whose handler ended with an exception before the call -/
  lost : List Bytes := []
deriving DecidableEq, Repr

/-! ## Jobs of a session -/

/-- `target_to_diff`; `none` is infinity. -/
def targetToDiff (target : ℕ) : Option ℚ :=
  if 0 < target then some ((maxTarget : ℚ) / target) else none

/-- The difficulty a share is credited with. -/
def creditedDiff (shareDiff : ℚ) (netTarget : ℕ) : ℚ :=
  match targetToDiff netTarget with
  | none => shareDiff
  | some net => min shareDiff net

/-- Who is paid: the window in PPLNS mode, else the session's own script. -/
def payoutsFor (spk : Bytes) (reward : ℕ) : Except PoolError (List (Bytes × ℕ)) :=
  if settings.pplns then
    pplnsSplit settings.regtest reward window.weights settings.feeBp settings.feeSpk
      settings.minOut settings.maxOutputs spk
  else .ok [(spk, reward)]

/-- The job that `notify` builds for a session with this payout script. -/
def makeJob (session : Session) (spk : Bytes) (tmpl : LiveTemplate) : Except PoolError Job := do
  let payouts ← payoutsFor settings window spk tmpl.coinbasevalue
  let halves ← buildCoinbase settings.regtest tmpl.height tmpl.coinbasevalue
    (session.en1.length + session.en2Size) tmpl.wc payouts
  return ⟨halves.1, halves.2, tmpl.prevLe, tmpl.version, tmpl.bits, tmpl.height, tmpl.mintime,
    session.diff, tmpl.branchLe, tmpl.txs⟩

/-- A session keeps this many jobs. -/
def maxJobs : ℕ := 8

/-- Only the newest jobs stay. -/
def JobTable.store (jobs : JobTable) (jid : ℕ) (job : Job) : JobTable :=
  (jobs ++ [(jid, job)]).drop ((jobs ++ [(jid, job)]).length - maxJobs)

/-- Stores a job under the next identifier. -/
def Session.store (session : Session) (job : Job) : Session :=
  { session with
    jobn := session.jobn + 1
    jobs := session.jobs.store (session.jobn + 1) job }

/-- `notify` up to its send.  Without a template or a payout script it returns at once, which is
`none`. -/
def notifySession (session : Session) : Except PoolError (Option Session) :=
  match state.tmpl, session.spk with
  | some tmpl, some spk => do
    let job ← makeJob state.settings state.window session spk tmpl
    return some (session.store job)
  | _, _ => .ok none

/-! ## A submission -/

/-- The end of a submission by an exception. -/
def LoopState.raise (i : ℕ) (session : Session) (verdict : Verdict) : LoopState :=
  { state with
    sessions := state.sessions.set i { session with inFlight := none }
    lost := match verdict with
      | .block bytes _ => state.lost ++ [bytes]
      | _ => state.lost }

/-- `dispatch` after `observe_share`: a block is submitted, its job's height being logged first. -/
def LoopState.finish (i : ℕ) (session : Session) (jid : ℕ) (verdict : Verdict) : LoopState :=
  match verdict with
  | .block bytes _ =>
    match session.jobs.find jid with
    | none => state.raise i session verdict
    | some _ =>
      { state with
        sessions := state.sessions.set i { session with inFlight := none }
        submitted := state.submitted ++ [bytes] }
  | _ => { state with sessions := state.sessions.set i { session with inFlight := none } }

/-- The share of a submission is added to the window, in PPLNS mode. -/
def LoopState.credit (session : Session) (submission : Submission) (job : Job) : LoopState :=
  match state.settings.pplns, session.spk with
  | true, some spk =>
    { state with
      window := state.window.add spk (creditedDiff job.shareDiff job.target)
        (targetToDiff job.target)
      credits := state.credits ++ [⟨spk, submission.pending.header, job.shareDiff⟩] }
  | _, _ => state

/-- A wait of a submission ends.  `retune` is the difficulty that `observe_share` changes to. -/
def LoopState.resume (i : ℕ) (session : Session) (submission : Submission) (retune : Option ℚ) :
    LoopState :=
  match submission.stage with
  | .validating => state
  | .replying verdict =>
    match session.jobs.find submission.jid with
    | none => state.raise i session verdict
    | some job =>
      let state := state.credit session submission job
      match retune with
      | none => state.finish i session submission.jid verdict
      | some diff =>
        { state with
          sessions := state.sessions.set i
            { session with
              diff
              inFlight := some { submission with stage := .retuning verdict } } }
  | .retuning verdict =>
    match notifySession state session with
    | .error _ => state.raise i session verdict
    | .ok none => state.finish i session submission.jid verdict
    | .ok (some session) =>
      { state with
        sessions := state.sessions.set i
          { session with inFlight := some { submission with stage := .renotifying verdict } } }
  | .renotifying verdict => state.finish i session submission.jid verdict

/-- The node's answer to `validate`. -/
def LoopState.answer (state : LoopState) (i : ℕ) (session : Session) (submission : Submission)
    (powHash : Option ℕ) : LoopState :=
  let verdict := validateFinish dsha256 submission.pending powHash
  match verdict with
  | .rejected _ => { state with sessions := state.sessions.set i { session with inFlight := none } }
  | .share =>
    { state with
      sessions := state.sessions.set i
        { session with inFlight := some { submission with stage := .replying verdict } } }
  | .block bytes _ =>
    { state with
      sessions := state.sessions.set i
        { session with inFlight := some { submission with stage := .replying verdict } }
      found := state.found ++ [bytes] }

/-! ## Events and runs -/

/-- What the loop can be resumed by. -/
inductive LoopEvent where
  | connect (en1 : Bytes) (diff : ℚ)
  /-- `mining.authorize`, with the payout script if the address is valid -/
  | authorize (session : ℕ) (spk : Option Bytes)
  /-- a `refresh` has stored this template -/
  | template (tmpl : LiveTemplate)
  /-- `notify` called by another handler -/
  | notify (session : ℕ)
  /-- `apply_diff` of the poll loop sets the difficulty; its `notify` is an event of its own -/
  | setDiff (session : ℕ) (diff : ℚ)
  | submit (session : ℕ) (now : ℤ) (request : Submit)
  /-- the node answers `getmetaldagpowhash` -/
  | powHash (session : ℕ) (hash : Option ℕ)
  /-- another wait of the session's submission ends -/
  | resume (session : ℕ) (retune : Option ℚ)
deriving DecidableEq, Repr

/-- A request is read when the one before is answered; one that `validate` refuses at once leaves
nothing behind. -/
def LoopState.submit (state : LoopState) (i : ℕ) (session : Session) (now : ℤ) (request : Submit) :
    LoopState :=
  match session.inFlight, request.jid with
  | none, some jid =>
    match validateStart dsha256 session.jobs session.en1 session.en2Size now
        (state.tmpl.map LiveTemplate.prevLe) request with
    | .error _ => state
    | .ok pending =>
      { state with
        sessions := state.sessions.set i
          { session with inFlight := some ⟨jid, pending, .validating⟩ } }
  | _, _ => state

/-- An event of a session that is there. -/
def LoopState.sessionStep (state : LoopState) (i : ℕ) (session : Session) : LoopEvent → LoopState
  | .authorize _ spk =>
    if session.inFlight = none then
      { state with sessions := state.sessions.set i { session with spk } }
    else state
  | .notify _ =>
    match notifySession state session with
    | .ok (some session) => { state with sessions := state.sessions.set i session }
    | _ => state
  | .setDiff _ diff => { state with sessions := state.sessions.set i { session with diff } }
  | .submit _ now request => state.submit dsha256 i session now request
  | .powHash _ hash =>
    match session.inFlight with
    | some submission =>
      if submission.stage = .validating then
        state.answer dsha256 i session submission hash
      else state
    | none => state
  | .resume _ retune =>
    match session.inFlight with
    | some submission => state.resume i session submission retune
    | none => state
  | _ => state

/-- The session that an event is about. -/
def LoopEvent.session : LoopEvent → Option ℕ
  | .authorize i _ | .notify i | .setDiff i _ | .submit i _ _ | .powHash i _ | .resume i _ => some i
  | .connect _ _ | .template _ => none

/-- One event. -/
def LoopState.step (state : LoopState) (event : LoopEvent) : LoopState :=
  match event with
  | .connect en1 diff => { state with sessions := state.sessions ++ [{ en1, diff }] }
  | .template tmpl => { state with tmpl := some tmpl }
  | event =>
    match event.session with
    | none => state
    | some i =>
      match state.sessions[i]? with
      | none => state
      | some session => state.sessionStep dsha256 i session event

/-- A run of events. -/
def LoopState.run (state : LoopState) (events : List LoopEvent) : LoopState :=
  events.foldl (LoopState.step dsha256) state

/-- A pool that has just started. -/
def LoopState.start : LoopState := { settings, window }

theorem step_of_session {dsha256 : Dsha256} {state : LoopState} {event : LoopEvent} {i : ℕ}
    (hevent : event.session = some i) :
    state.step dsha256 event =
      match state.sessions[i]? with
      | none => state
      | some session => state.sessionStep dsha256 i session event := by
  cases event with
  | connect en1 diff => cases hevent
  | template tmpl => cases hevent
  | _ =>
    obtain rfl := Option.some.inj hevent
    rfl

theorem notifySession_eq_some {state : LoopState} {session next : Session}
    (h : notifySession state session = .ok (some next)) : ∃ job, next = session.store job := by
  unfold notifySession at h
  split at h
  · obtain ⟨job, -, h⟩ := Except.bind_eq_ok_iff.mp h
    exact ⟨job, (Option.some.inj (Except.ok.inj h)).symm⟩
  · cases h

theorem credit_frame {state : LoopState} (session : Session) (submission : Submission) (job : Job) :
    (state.credit session submission job).sessions = state.sessions ∧
      (state.credit session submission job).found = state.found ∧
      (state.credit session submission job).submitted = state.submitted ∧
      (state.credit session submission job).lost = state.lost := by
  unfold LoopState.credit
  split <;> exact ⟨rfl, rfl, rfl, rfl⟩

theorem filterMap_cons_eq_append {α β : Type*} (f : α → Option β) (first : α) (rest : List α) :
    (first :: rest).filterMap f = (f first).toList ++ rest.filterMap f := by
  cases hfirst : f first with
  | none => simp [hfirst]
  | some value => simp [hfirst]

/-- Replacing one element of a list exchanges what it contributes. -/
theorem perm_filterMap_set {α β : Type*} (f : α → Option β) {old : α} (new : α) :
    ∀ {items : List α} {i : ℕ}, items[i]? = some old →
      (items.filterMap f ++ (f new).toList).Perm
        ((items.set i new).filterMap f ++ (f old).toList) := by
  intro items
  induction items with
  | nil =>
    intro i hi
    cases hi
  | cons first rest ih =>
    intro i hi
    cases i with
    | zero =>
      obtain rfl := Option.some.inj hi
      rw [List.set_cons_zero, filterMap_cons_eq_append, filterMap_cons_eq_append,
        List.append_assoc, List.append_assoc]
      refine List.perm_append_comm.trans ?_
      rw [List.append_assoc]
      exact List.perm_append_comm_assoc _ _ _
    | succ i =>
      rw [List.set_cons_succ, filterMap_cons_eq_append, filterMap_cons_eq_append,
        List.append_assoc, List.append_assoc]
      exact (ih hi).append_left _

end XCoin.Pool
