import XCoin.Pool.Session
import XCoin.Pool.SolvedBlock

/-!
# From a found block to `submitblock`

Every block that `validate` returns is submitted, lost by an exception, or still held by the
submission that found it (`Accounted`), in every run.  A block is lost if its job is pruned while
the submission is under way, or if the submission's own `notify` raises.  In runs where neither
happens nothing is lost, and a held block is submitted once the waits of its submission end,
whatever else runs in between.
-/

namespace XCoin.Pool

open Validation

variable {dsha256 : Dsha256} {state : LoopState} {session : Session} {event : LoopEvent} {jid : ℕ}

/-! ## The jobs of a session -/

theorem JobTable.length_store_le (jobs : JobTable) (jid : ℕ) (job : Job) :
    (jobs.store jid job).length ≤ maxJobs := by
  rw [JobTable.store, List.length_drop]
  omega

theorem JobTable.find_append_isSome {jobs : JobTable} (other : JobTable)
    (h : (jobs.find jid).isSome = true) : (JobTable.find (jobs ++ other) jid).isSome = true := by
  rw [JobTable.find, List.lookup_append]
  rw [JobTable.find] at h
  cases hfind : jobs.lookup jid with
  | none =>
    rw [hfind] at h
    cases h
  | some job => rfl

/-- The oldest of eight jobs is pruned by the next one. -/
def JobTable.Prunes (jobs : JobTable) (jid : ℕ) : Prop :=
  maxJobs ≤ jobs.length ∧ jobs.head?.map Prod.fst = some jid

instance (jobs : JobTable) (jid : ℕ) : Decidable (jobs.Prunes jid) :=
  inferInstanceAs (Decidable (_ ∧ _))

theorem JobTable.find_store_isSome {jobs : JobTable} (new : ℕ) (job : Job)
    (hshort : jobs.length ≤ maxJobs) (hfind : (jobs.find jid).isSome = true)
    (hkeeps : ¬jobs.Prunes jid) : ((jobs.store new job).find jid).isSome = true := by
  rcases Nat.lt_or_ge jobs.length maxJobs with hroom | hfull
  · have hnone : (jobs ++ [(new, job)]).length - maxJobs = 0 := by
      rw [List.length_append, List.length_singleton]
      omega
    rw [JobTable.store, hnone, List.drop_zero]
    exact JobTable.find_append_isSome _ hfind
  · have hone : (jobs ++ [(new, job)]).length - maxJobs = 1 := by
      rw [List.length_append, List.length_singleton]
      omega
    rw [JobTable.store, hone]
    cases jobs with
    | nil => cases hfind
    | cons oldest rest =>
      have hother : jid ≠ oldest.1 := fun hsame => hkeeps ⟨hfull, by rw [hsame]; rfl⟩
      have hrest : (JobTable.find rest jid).isSome = true := by
        rw [JobTable.find, List.lookup_cons, beq_false_of_ne hother] at hfind
        exact hfind
      exact JobTable.find_append_isSome _ hrest

/-! ## Held blocks -/

/-- The verdict a submission holds, once judged. -/
def Stage.verdict : Stage → Option Verdict
  | .validating => none
  | .replying verdict | .retuning verdict | .renotifying verdict => some verdict

/-- The block of a verdict. -/
def Verdict.block? : Verdict → Option Bytes
  | .block bytes _ => some bytes
  | _ => none

/-- The block that a session's submission still has to submit. -/
def Session.heldBlock (session : Session) : Option Bytes :=
  session.inFlight.bind fun submission => submission.stage.verdict.bind Verdict.block?

/-- The blocks still to be sent. -/
def heldBlocks (sessions : List Session) : List Bytes := sessions.filterMap Session.heldBlock

theorem heldBlocks_append (sessions : List Session) (session : Session) :
    heldBlocks (sessions ++ [session]) = heldBlocks sessions ++ session.heldBlock.toList := by
  rw [heldBlocks, List.filterMap_append, heldBlocks]
  cases hheld : session.heldBlock with
  | none => simp [hheld]
  | some bytes => simp [hheld]

theorem heldBlocks_set {sessions : List Session} {i : ℕ} {session : Session} (next : Session)
    (h : sessions[i]? = some session) :
    (heldBlocks sessions ++ next.heldBlock.toList).Perm
      (heldBlocks (sessions.set i next) ++ session.heldBlock.toList) :=
  perm_filterMap_set Session.heldBlock next h

/-! ## What a step does with blocks -/

/-- A step replaces one session.  What the session held and what was found is held, submitted or
lost afterwards. -/
structure Exchange (state state' : LoopState) (i : ℕ) (session next : Session)
    (found submitted lost : List Bytes) : Prop where
  sessions_eq : state'.sessions = state.sessions.set i next
  found_eq : state'.found = state.found ++ found
  submitted_eq : state'.submitted = state.submitted ++ submitted
  lost_eq : state'.lost = state.lost ++ lost
  balance : (session.heldBlock.toList ++ found).Perm
    (next.heldBlock.toList ++ (submitted ++ lost))

/-- Every found block is submitted, lost or held. -/
def Accounted (state : LoopState) : Prop :=
  state.found.Perm (state.submitted ++ state.lost ++ heldBlocks state.sessions)

theorem Accounted.exchange {state state' : LoopState} (h : Accounted state) {i : ℕ}
    {session next : Session} {found submitted lost : List Bytes}
    (hsession : state.sessions[i]? = some session)
    (hstep : Exchange state state' i session next found submitted lost) : Accounted state' := by
  have hset := heldBlocks_set next hsession
  have hbalance := hstep.balance
  rw [Accounted] at h ⊢
  rw [hstep.sessions_eq, hstep.found_eq, hstep.submitted_eq, hstep.lost_eq]
  -- count every block on both sides
  rw [List.perm_iff_count] at h hset hbalance ⊢
  intro bytes
  have h1 := h bytes
  have h2 := hset bytes
  have h3 := hbalance bytes
  simp only [List.count_append] at h1 h2 h3 ⊢
  omega

section Operations

variable {state : LoopState} {i : ℕ} {session : Session} {submission : Submission}

theorem heldBlock_of_inFlight {verdict : Verdict} (hflight : session.inFlight = some submission)
    (hstage : submission.stage.verdict = some verdict) :
    session.heldBlock = verdict.block? := by
  rw [Session.heldBlock, hflight, Option.bind_some, hstage, Option.bind_some]

theorem exchange_finish {verdict : Verdict} (hheld : session.heldBlock = verdict.block?)
    (hjob : (session.jobs.find jid).isSome = true) :
    Exchange state (state.finish i session jid verdict) i session
      { session with inFlight := none } [] verdict.block?.toList [] := by
  obtain ⟨job, hjob⟩ := Option.isSome_iff_exists.mp hjob
  cases verdict with
  | block bytes hash =>
    have hfinish : state.finish i session jid (.block bytes hash) =
        { state with
          sessions := state.sessions.set i { session with inFlight := none }
          submitted := state.submitted ++ [bytes] } := by
      simp only [LoopState.finish, hjob]
    rw [hfinish]
    refine ⟨rfl, (List.append_nil _).symm, rfl, (List.append_nil _).symm, ?_⟩
    rw [hheld, List.append_nil]
    exact List.Perm.refl _
  | rejected why =>
    refine ⟨rfl, (List.append_nil _).symm, (List.append_nil _).symm, (List.append_nil _).symm, ?_⟩
    rw [hheld]
    exact List.Perm.refl _
  | share =>
    refine ⟨rfl, (List.append_nil _).symm, (List.append_nil _).symm, (List.append_nil _).symm, ?_⟩
    rw [hheld]
    exact List.Perm.refl _

theorem exchange_of_held {state' : LoopState} {next : Session}
    (hsessions : state'.sessions = state.sessions.set i next)
    (hfound : state'.found = state.found) (hsubmitted : state'.submitted = state.submitted)
    (hlost : state'.lost = state.lost) (hheld : next.heldBlock = session.heldBlock) :
    Exchange state state' i session next [] [] [] := by
  refine ⟨hsessions, ?_, ?_, ?_, ?_⟩
  · rw [hfound, List.append_nil]
  · rw [hsubmitted, List.append_nil]
  · rw [hlost, List.append_nil]
  · rw [hheld]
    exact List.Perm.refl _

/-- The answer to `validate` makes a found block a held one. -/
theorem exchange_answer (powHash : Option ℕ) (hflight : session.inFlight = some submission)
    (hstage : submission.stage = .validating) :
    ∃ next found,
      Exchange state (state.answer dsha256 i session submission powHash) i session next found
        [] [] ∧
      next.jobs = session.jobs ∧ ∀ later ∈ next.inFlight, later.jid = submission.jid := by
  have hnone : session.heldBlock = none := by
    rw [Session.heldBlock, hflight, Option.bind_some, hstage]
    rfl
  unfold LoopState.answer
  cases hverdict : validateFinish dsha256 submission.pending powHash with
  | rejected why =>
    refine ⟨{ session with inFlight := none }, [], exchange_of_held rfl rfl rfl rfl ?_, rfl, ?_⟩
    · rw [hnone]
      rfl
    · intro later hlater
      cases hlater
  | share =>
    refine ⟨_, [], exchange_of_held rfl rfl rfl rfl ?_, rfl, ?_⟩
    · rw [hnone]
      rfl
    · intro later hlater
      rw [← Option.some.inj hlater]
  | block bytes hash =>
    refine ⟨{ session with
        inFlight := some { submission with stage := .replying (.block bytes hash) } },
      [bytes], ⟨rfl, rfl, (List.append_nil _).symm, (List.append_nil _).symm, ?_⟩, rfl, ?_⟩
    · rw [hnone]
      exact List.Perm.refl _
    · intro later hlater
      rw [← Option.some.inj hlater]

end Operations

/-! ## The condition -/

/-- What a `notify` needs to build a job without raising. -/
structure CanBuild (state : LoopState) (session : Session) (spk : Bytes) (tmpl : LiveTemplate) :
    Prop where
  reward : 0 < tmpl.coinbasevalue
  spk : IsV3Output spk
  feeSpk : ∀ script ∈ state.settings.feeSpk, IsV3Output script
  feeBp : state.settings.feeBp < 10000
  minOut : 0 < state.settings.minOut
  window : ∀ share ∈ state.window.shares, IsV3Output share.1
  wc : tmpl.wc.length ≤ maxOpReturnRelay
  sig : (scriptSigStart tmpl.height).length + (session.en1.length + session.en2Size) ≤
    maxCoinbaseScriptSig

theorem payoutsFor_isOk {spk : Bytes} {tmpl : LiveTemplate} (h : CanBuild state session spk tmpl) :
    ∃ payouts, payoutsFor state.settings state.window spk tmpl.coinbasevalue = .ok payouts ∧
      SplitPayouts tmpl.coinbasevalue payouts := by
  unfold payoutsFor
  split_ifs
  · exact pplnsSplit_isOk _ h.reward h.feeBp h.minOut (PplnsWindow.scripts_weights h.window)
      h.feeSpk h.spk
  · refine ⟨_, rfl, by simp, ?_, ?_⟩
    · intro payout hpayout
      rw [List.mem_singleton.mp hpayout]
      exact h.reward
    · intro payout hpayout
      rw [List.mem_singleton.mp hpayout]
      exact h.spk

theorem makeJob_isOk {spk : Bytes} {tmpl : LiveTemplate} (h : CanBuild state session spk tmpl) :
    ∃ job, makeJob state.settings state.window session spk tmpl = .ok job := by
  obtain ⟨payouts, hpayouts, hsplit⟩ := payoutsFor_isOk h
  obtain ⟨part1, part2, hbuilt⟩ :=
    buildCoinbase_isOk state.settings.regtest h.sig hsplit.sum_eq hsplit.pos hsplit.scripts h.wc
  rw [makeJob, hpayouts, Except.ok_bind, hbuilt, Except.ok_bind]
  exact ⟨_, rfl⟩

theorem notifySession_isOk
    (h : ∀ tmpl ∈ state.tmpl, ∀ spk ∈ session.spk, CanBuild state session spk tmpl) :
    ∃ next, notifySession state session = .ok next := by
  cases htmpl : state.tmpl with
  | none => exact ⟨none, by simp only [notifySession, htmpl]⟩
  | some tmpl =>
    cases hspk : session.spk with
    | none => exact ⟨none, by simp only [notifySession, htmpl, hspk]⟩
    | some spk =>
      obtain ⟨job, hjob⟩ := makeJob_isOk (h tmpl htmpl spk hspk)
      refine ⟨some (session.store job), ?_⟩
      simp only [notifySession, htmpl, hspk, hjob]
      rfl

/-- A `notify` on this session does not prune the job of its submission. -/
def Session.KeepsJob (session : Session) : Prop :=
  ∀ submission ∈ session.inFlight, ¬session.jobs.Prunes submission.jid

/-- The steps that lose no block: no `notify`, be it of another handler or of the submission
itself, prunes the job of a submission under way, and the submission's own `notify` can build a
job. -/
def StepKeeps (state : LoopState) : LoopEvent → Prop
  | .notify i => ∀ session ∈ state.sessions[i]?, session.KeepsJob
  | .resume i _ => ∀ session ∈ state.sessions[i]?, ∀ submission ∈ session.inFlight,
      ∀ verdict, submission.stage = .retuning verdict →
        session.KeepsJob ∧
          ∀ tmpl ∈ state.tmpl, ∀ spk ∈ session.spk, CanBuild state session spk tmpl
  | _ => True

/-- Every step of the run keeps the assumptions. -/
def RunKeeps (dsha256 : Dsha256) : LoopState → List LoopEvent → Prop
  | _, [] => True
  | state, event :: rest =>
    StepKeeps state event ∧ RunKeeps dsha256 (state.step dsha256 event) rest

/-! ## Nothing is lost -/

/-- What every session keeps. -/
structure SessionKept (session : Session) : Prop where
  short : session.jobs.length ≤ maxJobs
  job : ∀ submission ∈ session.inFlight, (session.jobs.find submission.jid).isSome = true

/-- The invariant of the loop. -/
structure Healthy (state : LoopState) : Prop where
  accounted : Accounted state
  kept : ∀ session ∈ state.sessions, SessionKept session
  lost : state.lost = []

/-- A step that replaces a session and loses nothing. -/
def Advances (state state' : LoopState) (i : ℕ) (session : Session) : Prop :=
  ∃ next found submitted, Exchange state state' i session next found submitted [] ∧
    SessionKept next

theorem Healthy.advances {state state' : LoopState} (h : Healthy state) {i : ℕ}
    {session : Session} (hsession : state.sessions[i]? = some session)
    (hstep : Advances state state' i session) : Healthy state' := by
  obtain ⟨next, found, submitted, hexchange, hnext⟩ := hstep
  refine ⟨h.accounted.exchange hsession hexchange, fun other hother => ?_, ?_⟩
  · rw [hexchange.sessions_eq] at hother
    rcases List.mem_or_eq_of_mem_set hother with hold | rfl
    · exact h.kept other hold
    · exact hnext
  · rw [hexchange.lost_eq, h.lost, List.append_nil]

section Kept

variable {state : LoopState} {i : ℕ} {session : Session} {submission : Submission}

theorem SessionKept.ended (h : SessionKept session) :
    SessionKept { session with inFlight := none } :=
  ⟨h.short, fun _ hnone => by cases hnone⟩

theorem SessionKept.store (h : SessionKept session) (hkeeps : session.KeepsJob) (job : Job) :
    SessionKept (session.store job) := by
  refine ⟨JobTable.length_store_le _ _ _, fun submission hflight => ?_⟩
  exact JobTable.find_store_isSome _ _ h.short (h.job submission hflight)
    (hkeeps submission hflight)

theorem SessionKept.continued (h : SessionKept session)
    (hflight : session.inFlight = some submission) (stage : Stage) (diff : ℚ) :
    SessionKept
      { session with diff, inFlight := some { submission with stage } } := by
  refine ⟨h.short, fun later hlater => ?_⟩
  rw [← Option.some.inj hlater]
  exact h.job submission hflight

theorem advances_finish (h : SessionKept session) (hflight : session.inFlight = some submission)
    {verdict : Verdict} (hstage : submission.stage.verdict = some verdict) :
    Advances state (state.finish i session submission.jid verdict) i session :=
  ⟨_, _, _, exchange_finish (heldBlock_of_inFlight hflight hstage) (h.job submission hflight),
    h.ended⟩

/-- What is done after a share was credited is done to the state before, as far as blocks go. -/
theorem Advances.of_frame {before after state' : LoopState}
    (hsessions : before.sessions = after.sessions) (hfound : before.found = after.found)
    (hsubmitted : before.submitted = after.submitted) (hlost : before.lost = after.lost)
    (h : Advances before state' i session) : Advances after state' i session := by
  obtain ⟨next, found, submitted, hexchange, hnext⟩ := h
  refine ⟨next, found, submitted, ⟨?_, ?_, ?_, ?_, hexchange.balance⟩, hnext⟩
  · rw [hexchange.sessions_eq, hsessions]
  · rw [hexchange.found_eq, hfound]
  · rw [hexchange.submitted_eq, hsubmitted]
  · rw [hexchange.lost_eq, hlost]

theorem advances_resume (h : SessionKept session) (hflight : session.inFlight = some submission)
    (retune : Option ℚ)
    (hkeeps : ∀ verdict, submission.stage = .retuning verdict → session.KeepsJob ∧
      ∀ tmpl ∈ state.tmpl, ∀ spk ∈ session.spk, CanBuild state session spk tmpl) :
    state.resume i session submission retune = state ∨
      Advances state (state.resume i session submission retune) i session := by
  obtain ⟨job, hjob⟩ := Option.isSome_iff_exists.mp (h.job submission hflight)
  cases hstage : submission.stage with
  | validating => exact .inl (by simp only [LoopState.resume, hstage])
  | replying verdict =>
    have hverdict : submission.stage.verdict = some verdict := by rw [hstage]; rfl
    have hframe : (state.credit session submission job).sessions = state.sessions ∧ _ :=
      credit_frame session submission job
    obtain ⟨hsessions, hfound, hsubmitted, hlost⟩ := hframe
    refine .inr (Advances.of_frame hsessions hfound hsubmitted hlost ?_)
    cases retune with
    | none =>
      simp only [LoopState.resume, hstage, hjob]
      exact advances_finish h hflight hverdict
    | some diff =>
      simp only [LoopState.resume, hstage, hjob]
      refine ⟨_, [], [], exchange_of_held rfl rfl rfl rfl ?_,
        h.continued hflight (.retuning verdict) diff⟩
      rw [heldBlock_of_inFlight hflight hverdict]
      rfl
  | retuning verdict =>
    have hverdict : submission.stage.verdict = some verdict := by rw [hstage]; rfl
    obtain ⟨hprune, hbuild⟩ := hkeeps verdict hstage
    obtain ⟨next, hnext⟩ := notifySession_isOk hbuild
    refine .inr ?_
    cases next with
    | none =>
      simp only [LoopState.resume, hstage, hnext]
      exact advances_finish h hflight hverdict
    | some next =>
      obtain ⟨job, rfl⟩ := notifySession_eq_some hnext
      simp only [LoopState.resume, hstage, hnext]
      have hstored := h.store hprune job
      refine ⟨_, [], [], exchange_of_held rfl rfl rfl rfl ?_,
        hstored.continued hflight (.renotifying verdict) session.diff⟩
      rw [heldBlock_of_inFlight hflight hverdict]
      rfl
  | renotifying verdict =>
    have hverdict : submission.stage.verdict = some verdict := by rw [hstage]; rfl
    simp only [LoopState.resume, hstage]
    exact .inr (advances_finish h hflight hverdict)

theorem find_of_validateStart {now : ℤ} {tip : Option Bytes} {request : Submit} {pending : Pending}
    (hjid : request.jid = some jid)
    (h : validateStart dsha256 session.jobs session.en1 session.en2Size now tip request =
      .ok pending) :
    (session.jobs.find jid).isSome = true := by
  obtain ⟨job, hjob, -⟩ := Except.bind_eq_ok_iff.mp h
  unfold namedJob at hjob
  rw [hjid, Option.bind_some] at hjob
  cases hfind : session.jobs.find jid with
  | none =>
    rw [hfind] at hjob
    cases hjob
  | some found => rfl

theorem advances_submit (h : SessionKept session) (now : ℤ) (request : Submit) :
    state.submit dsha256 i session now request = state ∨
      Advances state (state.submit dsha256 i session now request) i session := by
  unfold LoopState.submit
  split
  · rename_i jid hflight hjid
    split
    · exact .inl rfl
    · rename_i pending hstart
      refine .inr ⟨_, [], [], exchange_of_held rfl rfl rfl rfl ?_, h.short, fun later hlater => ?_⟩
      · rw [Session.heldBlock, Session.heldBlock, hflight]
        rfl
      · rw [← Option.some.inj hlater]
        exact find_of_validateStart hjid hstart
  · exact .inl rfl

/-- Every event of a session leaves the state as it is or moves the session on. -/
theorem advances_sessionStep (h : SessionKept session)
    (hsession : state.sessions[i]? = some session) (hevent : event.session = some i)
    (hkeeps : StepKeeps state event) :
    state.sessionStep dsha256 i session event = state ∨
      Advances state (state.sessionStep dsha256 i session event) i session := by
  cases event with
  | connect en1 diff => exact .inl rfl
  | template tmpl => exact .inl rfl
  | authorize j spk =>
    by_cases hidle : session.inFlight = none
    · simp only [LoopState.sessionStep, if_pos hidle]
      exact .inr ⟨_, [], [], exchange_of_held rfl rfl rfl rfl rfl, h.short, h.job⟩
    · exact .inl (by simp only [LoopState.sessionStep, if_neg hidle])
  | notify j =>
    obtain rfl := Option.some.inj hevent
    cases hnotify : notifySession state session with
    | error why => exact .inl (by simp only [LoopState.sessionStep, hnotify])
    | ok next =>
      cases next with
      | none => exact .inl (by simp only [LoopState.sessionStep, hnotify])
      | some next =>
        obtain ⟨job, rfl⟩ := notifySession_eq_some hnotify
        simp only [LoopState.sessionStep, hnotify]
        exact .inr ⟨_, [], [], exchange_of_held rfl rfl rfl rfl rfl,
          h.store (hkeeps session hsession) job⟩
  | setDiff j diff =>
    exact .inr ⟨_, [], [], exchange_of_held rfl rfl rfl rfl rfl, h.short, h.job⟩
  | submit j now request => exact advances_submit h now request
  | powHash j hash =>
    cases hflight : session.inFlight with
    | none => exact .inl (by simp only [LoopState.sessionStep, hflight])
    | some submission =>
      by_cases hstage : submission.stage = .validating
      · simp only [LoopState.sessionStep, hflight, if_pos hstage]
        obtain ⟨next, found, hexchange, hjobs, hjid⟩ :=
          exchange_answer hash hflight hstage
        refine .inr ⟨next, found, [], hexchange, by rw [hjobs]; exact h.short, ?_⟩
        intro later hlater
        rw [hjobs, hjid later hlater]
        exact h.job submission hflight
      · exact .inl (by simp only [LoopState.sessionStep, hflight, if_neg hstage])
  | resume j retune =>
    obtain rfl := Option.some.inj hevent
    cases hflight : session.inFlight with
    | none => exact .inl (by simp only [LoopState.sessionStep, hflight])
    | some submission =>
      simp only [LoopState.sessionStep, hflight]
      exact advances_resume h hflight retune (hkeeps session hsession submission hflight)

end Kept

theorem Healthy.step (h : Healthy state) (hkeeps : StepKeeps state event) :
    Healthy (state.step dsha256 event) := by
  cases hevent : event.session with
  | none =>
    cases event with
    | connect en1 diff =>
      refine ⟨?_, fun session hsession => ?_, h.lost⟩
      · change state.found.Perm
          (state.submitted ++ state.lost ++ heldBlocks (state.sessions ++ [_]))
        have haccounted := h.accounted
        rw [Accounted] at haccounted
        rw [heldBlocks_append]
        simpa [Session.heldBlock] using haccounted
      · rcases List.mem_append.mp hsession with hold | hnew
        · exact h.kept session hold
        · rw [List.mem_singleton.mp hnew]
          exact ⟨Nat.zero_le _, fun _ hnone => by cases hnone⟩
    | template tmpl => exact ⟨h.accounted, h.kept, h.lost⟩
    | _ => cases hevent
  | some i =>
    rw [step_of_session hevent]
    cases hsession : state.sessions[i]? with
    | none => exact h
    | some session =>
      have hkept := h.kept session (List.mem_of_getElem? hsession)
      rcases advances_sessionStep hkept hsession hevent hkeeps with hsame | hadvances
      · dsimp only
        rw [hsame]
        exact h
      · exact h.advances hsession hadvances

theorem Healthy.run :
    ∀ (events : List LoopEvent) (state : LoopState), Healthy state →
      RunKeeps dsha256 state events → Healthy (state.run dsha256 events) := by
  intro events
  induction events with
  | nil =>
    intro state h _
    exact h
  | cons event rest ih =>
    intro state h hkeeps
    exact ih _ (h.step hkeeps.1) hkeeps.2

/-! ## A held block is submitted -/

/-- How many waits are left at most. -/
def Stage.waits : Stage → ℕ
  | .validating => 0
  | .replying _ => 3
  | .retuning _ => 2
  | .renotifying _ => 1

/-- The block was submitted, or the session holds it and has at most this many waits left. -/
def Submits (state : LoopState) (i : ℕ) (bytes : Bytes) (waits : ℕ) : Prop :=
  bytes ∈ state.submitted ∨ ∃ session submission verdict, state.sessions[i]? = some session ∧
    session.inFlight = some submission ∧ submission.stage.verdict = some verdict ∧
    verdict.block? = some bytes ∧ submission.stage.waits ≤ waits

section Progress

variable {state : LoopState} {i : ℕ} {bytes : Bytes} {verdict : Verdict}

theorem Healthy.submitted_step (h : Healthy state) (hkeeps : StepKeeps state event)
    (hmem : bytes ∈ state.submitted) : bytes ∈ (state.step dsha256 event).submitted := by
  cases hevent : event.session with
  | none =>
    cases event with
    | connect en1 diff => exact hmem
    | template tmpl => exact hmem
    | _ => cases hevent
  | some j =>
    rw [step_of_session hevent]
    cases hsession : state.sessions[j]? with
    | none => exact hmem
    | some session =>
      have hkept := h.kept session (List.mem_of_getElem? hsession)
      dsimp only
      rcases advances_sessionStep hkept hsession hevent hkeeps with hsame | hadvances
      · rw [hsame]
        exact hmem
      · obtain ⟨next, found, submitted, hexchange, -⟩ := hadvances
        rw [hexchange.submitted_eq]
        exact List.mem_append_left _ hmem

theorem Healthy.getElem?_step_of_ne (h : Healthy state) (hkeeps : StepKeeps state event)
    (hother : event.session ≠ some i) {session : Session}
    (hsession : state.sessions[i]? = some session) :
    (state.step dsha256 event).sessions[i]? = some session := by
  cases hevent : event.session with
  | none =>
    cases event with
    | connect en1 diff =>
      have hlt := (List.getElem?_eq_some_iff.mp hsession).1
      change (state.sessions ++ [_])[i]? = some session
      rw [List.getElem?_append_left hlt]
      exact hsession
    | template tmpl => exact hsession
    | _ => cases hevent
  | some j =>
    have hne : j ≠ i := fun hsame => hother (by rw [hevent, hsame])
    rw [step_of_session hevent]
    cases hstored : state.sessions[j]? with
    | none => exact hsession
    | some stored =>
      have hkept := h.kept stored (List.mem_of_getElem? hstored)
      dsimp only
      rcases advances_sessionStep hkept hstored hevent hkeeps with hsame | hadvances
      · rw [hsame]
        exact hsession
      · obtain ⟨next, found, submitted, hexchange, -⟩ := hadvances
        rw [hexchange.sessions_eq, List.getElem?_set_ne hne]
        exact hsession

theorem validating_of_no_verdict {stage : Stage} (h : stage.verdict = some verdict) :
    stage ≠ .validating := by
  rintro rfl
  cases h

theorem inFlight_sessionStep {submission : Submission}
    (hsession : state.sessions[i]? = some session) (hflight : session.inFlight = some submission)
    (hverdict : submission.stage.verdict = some verdict)
    (hresume : ∀ retune, event ≠ .resume i retune) (hevent : event.session = some i) :
    ∃ next, (state.sessionStep dsha256 i session event).sessions[i]? = some next ∧
      next.inFlight = some submission := by
  have hlt := (List.getElem?_eq_some_iff.mp hsession).1
  have hset (next : Session) : (state.sessions.set i next)[i]? = some next :=
    List.getElem?_set_self hlt
  cases event with
  | connect en1 diff => exact ⟨session, hsession, hflight⟩
  | template tmpl => exact ⟨session, hsession, hflight⟩
  | authorize j spk =>
    have hbusy : ¬session.inFlight = none := by
      rw [hflight]
      exact Option.some_ne_none _
    exact ⟨session, by simpa only [LoopState.sessionStep, if_neg hbusy] using hsession, hflight⟩
  | notify j =>
    cases hnotify : notifySession state session with
    | error why =>
      exact ⟨session, by simpa only [LoopState.sessionStep, hnotify] using hsession, hflight⟩
    | ok next =>
      cases next with
      | none =>
        refine ⟨session, ?_, hflight⟩
        simpa only [LoopState.sessionStep, hnotify] using hsession
      | some next =>
        obtain ⟨job, rfl⟩ := notifySession_eq_some hnotify
        refine ⟨session.store job, ?_, hflight⟩
        simp only [LoopState.sessionStep, hnotify]
        exact hset _
  | setDiff j diff => exact ⟨{ session with diff }, hset _, hflight⟩
  | submit j now request =>
    refine ⟨session, ?_, hflight⟩
    simpa only [LoopState.sessionStep, LoopState.submit, hflight] using hsession
  | powHash j hash =>
    refine ⟨session, ?_, hflight⟩
    simpa only [LoopState.sessionStep, hflight, if_neg (validating_of_no_verdict hverdict)]
      using hsession
  | resume j retune =>
    obtain rfl := Option.some.inj hevent
    exact absurd rfl (hresume retune)

theorem mem_submitted_finish (hheld : session.heldBlock = verdict.block?)
    (hblock : verdict.block? = some bytes) (hjob : (session.jobs.find jid).isSome = true) :
    bytes ∈ (state.finish i session jid verdict).submitted := by
  rw [(exchange_finish hheld hjob).submitted_eq, hblock]
  exact List.mem_append_right _ (List.mem_singleton_self bytes)

/-- The end of a wait brings the block closer to being submitted. -/
theorem submits_resume {submission : Submission} {n : ℕ} (hkept : SessionKept session)
    (hsession : state.sessions[i]? = some session) (hflight : session.inFlight = some submission)
    (hverdict : submission.stage.verdict = some verdict) (hblock : verdict.block? = some bytes)
    (hwaits : submission.stage.waits ≤ n + 1) (retune : Option ℚ)
    (hkeeps : ∀ verdict, submission.stage = .retuning verdict → session.KeepsJob ∧
      ∀ tmpl ∈ state.tmpl, ∀ spk ∈ session.spk, CanBuild state session spk tmpl) :
    Submits (state.resume i session submission retune) i bytes n := by
  have hlt := (List.getElem?_eq_some_iff.mp hsession).1
  have hfind := hkept.job submission hflight
  have hheld := heldBlock_of_inFlight hflight hverdict
  obtain ⟨job, hjob⟩ := Option.isSome_iff_exists.mp hfind
  cases hstage : submission.stage with
  | validating =>
    rw [hstage] at hverdict
    cases hverdict
  | replying own =>
    rw [hstage] at hverdict hwaits
    obtain rfl := Option.some.inj hverdict
    cases retune with
    | none =>
      simp only [LoopState.resume, hstage, hjob]
      exact .inl (mem_submitted_finish hheld hblock hfind)
    | some diff =>
      have hset : (state.credit session submission job).sessions = state.sessions :=
        (credit_frame session submission job).1
      simp only [LoopState.resume, hstage, hjob]
      refine .inr ⟨{ session with
          diff, inFlight := some { submission with stage := .retuning own } },
        { submission with stage := .retuning own }, own, ?_, rfl, rfl, hblock, ?_⟩
      · rw [hset]
        exact List.getElem?_set_self hlt
      · change 2 ≤ n
        change 3 ≤ n + 1 at hwaits
        omega
  | retuning own =>
    obtain ⟨-, hbuild⟩ := hkeeps own hstage
    obtain ⟨next, hnext⟩ := notifySession_isOk hbuild
    rw [hstage] at hverdict hwaits
    obtain rfl := Option.some.inj hverdict
    cases next with
    | none =>
      simp only [LoopState.resume, hstage, hnext]
      exact .inl (mem_submitted_finish hheld hblock hfind)
    | some next =>
      simp only [LoopState.resume, hstage, hnext]
      refine .inr ⟨{ next with
          inFlight := some { submission with stage := .renotifying own } },
        { submission with stage := .renotifying own }, own, List.getElem?_set_self hlt, rfl,
        rfl, hblock, ?_⟩
      change 1 ≤ n
      change 2 ≤ n + 1 at hwaits
      omega
  | renotifying own =>
    rw [hstage] at hverdict
    obtain rfl := Option.some.inj hverdict
    simp only [LoopState.resume, hstage]
    exact .inl (mem_submitted_finish hheld hblock hfind)

/-- The waits of this session that end in a run. -/
def resumptions (i : ℕ) (events : List LoopEvent) : ℕ :=
  events.countP fun event => match event with
    | .resume j _ => j == i
    | _ => false

theorem Submits.step (h : Healthy state) (hkeeps : StepKeeps state event) {n : ℕ}
    (hsubmits : Submits state i bytes (n + resumptions i [event])) :
    Submits (state.step dsha256 event) i bytes n := by
  rcases hsubmits with hmem | ⟨session, submission, verdict, hsession, hflight, hverdict, hblock,
    hwaits⟩
  · exact .inl (h.submitted_step hkeeps hmem)
  have hkept := h.kept session (List.mem_of_getElem? hsession)
  by_cases hresume : ∃ retune, event = .resume i retune
  · obtain ⟨retune, rfl⟩ := hresume
    have hone : resumptions i [.resume i retune] = 1 := by simp [resumptions]
    rw [hone] at hwaits
    have hstep : state.step dsha256 (.resume i retune) =
        state.resume i session submission retune := by
      rw [step_of_session rfl, hsession]
      simp only [LoopState.sessionStep, hflight]
    rw [hstep]
    exact submits_resume hkept hsession hflight hverdict hblock hwaits retune
      (hkeeps session hsession submission hflight)
  · have hnone : resumptions i [event] = 0 := by
      cases event with
      | resume j retune =>
        have hne : j ≠ i := fun hsame => hresume ⟨retune, by rw [hsame]⟩
        simp [resumptions, hne]
      | _ => rfl
    rw [hnone, Nat.add_zero] at hwaits
    by_cases hevent : event.session = some i
    · have hkeptFlight : ∃ next,
          (state.sessionStep dsha256 i session event).sessions[i]? = some next ∧
            next.inFlight = some submission :=
        inFlight_sessionStep hsession hflight hverdict
          (fun retune heq => hresume ⟨retune, heq⟩) hevent
      obtain ⟨next, hnext, hsame⟩ := hkeptFlight
      refine .inr ⟨next, submission, verdict, ?_, hsame, hverdict, hblock, hwaits⟩
      rw [step_of_session hevent, hsession]
      exact hnext
    · exact .inr ⟨session, submission, verdict, h.getElem?_step_of_ne hkeeps hevent hsession,
        hflight, hverdict, hblock, hwaits⟩

theorem Submits.run :
    ∀ (events : List LoopEvent) (state : LoopState), Healthy state →
      RunKeeps dsha256 state events → ∀ n, Submits state i bytes (n + resumptions i events) →
      Submits (state.run dsha256 events) i bytes n := by
  intro events
  induction events with
  | nil =>
    intro state _ _ n hsubmits
    exact hsubmits
  | cons event rest ih =>
    intro state h hkeeps n hsubmits
    have hcount : resumptions i (event :: rest) =
        resumptions i rest + resumptions i [event] := by
      rw [resumptions, resumptions, resumptions, ← List.singleton_append, List.countP_append]
      exact Nat.add_comm _ _
    rw [hcount, ← Nat.add_assoc] at hsubmits
    exact ih _ (h.step hkeeps.1) hkeeps.2 n (Submits.step h hkeeps.1 hsubmits)

end Progress

theorem healthy_start (settings : Settings) (window : PplnsWindow) :
    Healthy (LoopState.start settings window) where
  accounted := List.Perm.refl _
  kept session hsession := by cases hsession
  lost := rfl

/-- **Found blocks are submitted.**  In a run whose steps prune no job of a submission under way
and raise in no `notify` of one, nothing is lost: every block that `validate` returned was submitted
as it was returned or is held, and a held block is submitted once the at most three waits of its
submission have ended, whatever happens in between. -/
theorem found_blocks_submitted (dsha256 : Dsha256) (settings : Settings) (window : PplnsWindow)
    (events later : List LoopEvent)
    (hevents : RunKeeps dsha256 (.start settings window) events)
    (hlater : RunKeeps dsha256 ((LoopState.start settings window).run dsha256 events) later) :
    ((LoopState.start settings window).run dsha256 events).lost = [] ∧
      ((LoopState.start settings window).run dsha256 events).found.Perm
        (((LoopState.start settings window).run dsha256 events).submitted ++
          heldBlocks ((LoopState.start settings window).run dsha256 events).sessions) ∧
      ∀ (i : ℕ) (session : Session) (bytes : Bytes),
        ((LoopState.start settings window).run dsha256 events).sessions[i]? = some session →
        session.heldBlock = some bytes → 3 ≤ resumptions i later →
        bytes ∈ (((LoopState.start settings window).run dsha256 events).run dsha256
          later).submitted := by
  have hhealthy := Healthy.run events _ (healthy_start settings window) hevents
  refine ⟨hhealthy.lost, ?_, ?_⟩
  · have haccounted := hhealthy.accounted
    rw [Accounted, hhealthy.lost, List.append_nil] at haccounted
    exact haccounted
  · intro i session bytes hsession hheld hcount
    obtain ⟨submission, hflight, hrest⟩ := Option.bind_eq_some_iff.mp hheld
    obtain ⟨verdict, hverdict, hblock⟩ := Option.bind_eq_some_iff.mp hrest
    have hwaits : submission.stage.waits ≤ 0 + resumptions i later := by
      cases hstage : submission.stage with
      | validating => exact Nat.zero_le _
      | replying own => exact hcount.trans_eq (Nat.zero_add _).symm
      | retuning own => change 2 ≤ _; omega
      | renotifying own => change 1 ≤ _; omega
    rcases Submits.run later _ hhealthy hlater 0
      (.inr ⟨session, submission, verdict, hsession, hflight, hverdict, hblock, hwaits⟩) with
      hmem | ⟨_, final, own, -, -, hown, -, hzero⟩
    · exact hmem
    · -- a stage with a verdict has a wait left
      cases hstage : final.stage with
      | validating => rw [hstage] at hown; cases hown
      | replying v => rw [hstage] at hzero; cases hzero
      | retuning v => rw [hstage] at hzero; cases hzero
      | renotifying v => rw [hstage] at hzero; cases hzero

/-! ## The oldest job -/

/-- A solo pool's settings. -/
def soloSettings : Settings := ⟨false, false, 0, none, 10000, 100⟩

/-- A template without transactions. -/
def soloTemplate : LiveTemplate :=
  ⟨List.replicate 32 9, 50000, 20, 0x20000000, 0x207fffff, 100, [], [], []⟩

/-- The solo pool's first state. -/
def soloStart : LoopState := .start soloSettings { factor := 2 }

/-- A miner with one job. -/
def soloSetup (rest : List LoopEvent) : List LoopEvent :=
  .connect [1, 2, 3, 4] 1 :: .authorize 0 (some (Script.v3Output (List.replicate 32 1))) ::
    .template soloTemplate :: .notify 0 :: rest

/-- A share that solves the block. -/
def soloRequest : Submit := ⟨some 1, some [5, 6, 7, 8], some 150, some 77, none⟩

/-- Seven more jobs, then a block on the oldest of the eight whose share retunes the difficulty:
the new job prunes the solved one. -/
def retunedRun : List LoopEvent :=
  soloSetup (.notify 0 :: .notify 0 :: .notify 0 :: .notify 0 :: .notify 0 :: .notify 0 ::
    .notify 0 :: .submit 0 200 soloRequest :: .powHash 0 (some 0) :: .resume 0 (some 2) ::
    .resume 0 none :: .resume 0 none :: [])

theorem retunedRun_counts :
    (soloStart.run sumDsha256 retunedRun).found.length = 1 ∧
      (soloStart.run sumDsha256 retunedRun).submitted = [] ∧
      (soloStart.run sumDsha256 retunedRun).lost =
        (soloStart.run sumDsha256 retunedRun).found ∧
      heldBlocks (soloStart.run sumDsha256 retunedRun).sessions = [] := by
  decide +kernel

/-- Steps that meet the condition without a look at the job table: no `notify` while the session
has a submission under way, and no retune. -/
def LoopState.calm (state : LoopState) : LoopEvent → Bool
  | .notify i => state.sessions[i]?.all fun session => session.inFlight.isNone
  | .resume i _ => state.sessions[i]?.all fun session => session.inFlight.all fun submission =>
    match submission.stage with
    | .retuning _ => false
    | _ => true
  | _ => true

/-- Every step of the run is calm. -/
def LoopState.runCalm (dsha256 : Dsha256) : LoopState → List LoopEvent → Bool
  | _, [] => true
  | state, event :: rest => state.calm event && (state.step dsha256 event).runCalm dsha256 rest

theorem stepKeeps_of_calm (h : state.calm event = true) : StepKeeps state event := by
  cases event with
  | notify i =>
    intro session hsession submission hflight
    have hidle : state.sessions[i]?.all (fun session => session.inFlight.isNone) = true := h
    rw [Option.mem_def.mp hsession, Option.all_some, Option.mem_def.mp hflight] at hidle
    cases hidle
  | resume i retune =>
    intro session hsession submission hflight verdict hstage
    rw [LoopState.calm, Option.mem_def.mp hsession, Option.all_some, Option.mem_def.mp hflight,
      Option.all_some, hstage] at h
    cases h
  | _ => trivial

theorem runKeeps_of_runCalm :
    ∀ (events : List LoopEvent) (state : LoopState), state.runCalm dsha256 events = true →
      RunKeeps dsha256 state events := by
  intro events
  induction events with
  | nil =>
    intro state _
    trivial
  | cons event rest ih =>
    intro state h
    obtain ⟨hevent, hrest⟩ := Bool.and_eq_true_iff.mp h
    exact ⟨stepKeeps_of_calm hevent, ih _ hrest⟩

/-- A block that is found on the first job and waits for its reply to be sent. -/
def solvedRun : List LoopEvent := soloSetup (.submit 0 200 soloRequest :: .powHash 0 (some 0) :: [])

/-- Resumes the session's submission three times. -/
def threeWaits : List LoopEvent := .resume 0 none :: .resume 0 none :: .resume 0 none :: []

theorem solvedRun_calm :
    soloStart.runCalm sumDsha256 solvedRun = true ∧
      (soloStart.run sumDsha256 solvedRun).runCalm sumDsha256 threeWaits = true := by
  decide +kernel

theorem solvedRun_holds :
    ((soloStart.run sumDsha256 solvedRun).sessions[0]?.bind Session.heldBlock).isSome = true := by
  decide +kernel

/-- The block of `solvedRun` is held at its end and is submitted after the waits. -/
theorem solvedRun_submits :
    ∃ bytes, (soloStart.run sumDsha256 solvedRun).sessions[0]?.bind Session.heldBlock = some bytes ∧
      bytes ∈ ((soloStart.run sumDsha256 solvedRun).run sumDsha256 threeWaits).submitted := by
  obtain ⟨bytes, hbytes⟩ := Option.isSome_iff_exists.mp solvedRun_holds
  obtain ⟨session, hsession, hheld⟩ := Option.bind_eq_some_iff.mp hbytes
  refine ⟨bytes, hbytes, ?_⟩
  exact (found_blocks_submitted sumDsha256 soloSettings { factor := 2 } solvedRun threeWaits
    (runKeeps_of_runCalm _ _ solvedRun_calm.1) (runKeeps_of_runCalm _ _ solvedRun_calm.2)).2.2
    0 session bytes hsession hheld (by decide)

end XCoin.Pool
