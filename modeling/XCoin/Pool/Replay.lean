import XCoin.Pool.Session
import XCoin.Pool.SolvedBlock

/-!
# Shares that are credited once

`validate` keeps no record of what it accepted, so a request that describes a share once more is
credited once more.  What a request describes is the content of the job it names with the
extranonces put in, the time, the nonce and the version under the mask.  In runs where all
accepted requests describe different shares, and no two of their Merkle roots collide, the
headers credited to the window are distinct.

A share can be repeated without repeating the request: under the id of a job with the same
content, or with version bits outside the mask.
-/

namespace XCoin.Pool

variable {dsha256 : Dsha256}

/-! ## What a request describes -/

/-- The content of a job, with what a request puts in. -/
structure Share where
  version : UInt32
  prevLe : Bytes
  coinbase : Bytes
  branchLe : List Bytes
  ntime : UInt32
  bits : UInt32
  nonce : UInt32
deriving DecidableEq

/-- The Merkle root of the coinbase with the branch. -/
def Share.root (dsha256 : Dsha256) (share : Share) : Bytes :=
  share.branchLe.foldl (fun root sib => dsha256.hash (root ++ sib)) (dsha256.hash share.coinbase)

/-- The block header of a share. -/
def Share.header (dsha256 : Dsha256) (share : Share) : Bytes :=
  serializeUint32 share.version ++ share.prevLe ++ share.root dsha256 ++
    serializeUint32 share.ntime ++ serializeUint32 share.bits ++ serializeUint32 share.nonce

/-- The share of a job for these parameters. -/
def Job.share (job : Job) (en1 : Bytes) (params : SubmitParams) : Share where
  version := UInt32.ofNat (rolledVersion job.version params.vbits)
  prevLe := job.prevLe
  coinbase := job.coinbase en1 params.en2
  branchLe := job.branchLe
  ntime := UInt32.ofNat params.ntime
  bits := UInt32.ofNat job.bits
  nonce := UInt32.ofNat params.nonce

/-- The share that a request to a session describes. -/
def Session.describes (session : Session) (request : Submit) : Except Rejection Share := do
  let job ← namedJob session.jobs request
  let params ← parseSubmitParams request session.en2Size
  return job.share session.en1 params

theorem header_share (job : Job) (en1 : Bytes) (params : SubmitParams) :
    (job.share en1 params).header dsha256 = job.header dsha256 en1 params := by
  simp only [Share.header, Job.share, serializeUint32_ofNat]
  rfl

/-- What `validate` hands to the node is the header of the share that the request describes. -/
theorem describes_of_validateStart {session : Session} {now : ℤ} {tip : Option Bytes}
    {request : Submit} {pending : Pending}
    (hstart : validateStart dsha256 session.jobs session.en1 session.en2Size now tip request =
      .ok pending) :
    ∃ share, session.describes request = .ok share ∧ pending.header = share.header dsha256 := by
  obtain ⟨job, hjob, hstart⟩ := Except.bind_eq_ok_iff.mp hstart
  obtain ⟨_, -, hstart⟩ := Except.bind_eq_ok_iff.mp hstart
  obtain ⟨_, -, hstart⟩ := Except.bind_eq_ok_iff.mp hstart
  obtain ⟨params, hparams, hstart⟩ := Except.bind_eq_ok_iff.mp hstart
  refine ⟨job.share session.en1 params, ?_, ?_⟩
  · rw [Session.describes, hjob, Except.ok_bind, hparams]
    rfl
  · rw [← Except.ok.inj hstart, header_share]

theorem length_root (share : Share) : (share.root dsha256).length = 32 := by
  rw [Share.root]
  induction share.branchLe using List.reverseRecOn with
  | nil => exact dsha256.length_hash _
  | append_singleton branch sib _ =>
    rw [List.foldl_append]
    exact dsha256.length_hash _

/-- Only the previous block has no fixed length, so a header determines its parts. -/
theorem parts_of_header {share other : Share}
    (hheader : share.header dsha256 = other.header dsha256) :
    share.root dsha256 = other.root dsha256 ∧ share.version = other.version ∧
      share.prevLe = other.prevLe ∧ share.ntime = other.ntime ∧ share.bits = other.bits ∧
      share.nonce = other.nonce := by
  have hlength := congrArg List.length hheader
  simp only [Share.header, List.length_append, length_serializeUint32, length_root] at hlength
  simp only [Share.header, List.append_assoc] at hheader
  obtain ⟨hversion, hheader⟩ := List.append_inj hheader (by simp)
  obtain ⟨hprev, hheader⟩ := List.append_inj hheader (by omega)
  obtain ⟨hroot, hheader⟩ := List.append_inj hheader (by simp only [length_root])
  obtain ⟨hntime, hheader⟩ := List.append_inj hheader (by simp)
  obtain ⟨hbits, hnonce⟩ := List.append_inj hheader (by simp)
  exact ⟨hroot, serializeUint32_inj hversion, hprev, serializeUint32_inj hntime,
    serializeUint32_inj hbits, serializeUint32_inj hnonce⟩

/-- No collision of the hash: shares with one root have one coinbase and one branch. -/
def RootsApart (dsha256 : Dsha256) (shares : List Share) : Prop :=
  ∀ share ∈ shares, ∀ other ∈ shares, share.root dsha256 = other.root dsha256 →
    share.coinbase = other.coinbase ∧ share.branchLe = other.branchLe

instance (shares : List Share) : Decidable (RootsApart dsha256 shares) :=
  inferInstanceAs (Decidable (∀ share ∈ shares, ∀ other ∈ shares, _ → _))

theorem RootsApart.nodup_headers {shares : List Share} (hroots : RootsApart dsha256 shares)
    (hdistinct : shares.Nodup) : (shares.map (Share.header dsha256)).Nodup := by
  refine hdistinct.map_on fun share hshare other hother hheader => ?_
  obtain ⟨hroot, hversion, hprev, hntime, hbits, hnonce⟩ := parts_of_header hheader
  obtain ⟨hcoinbase, hbranch⟩ := hroots share hshare other hother hroot
  cases share
  cases other
  simp_all only

/-- The share that an event starts to validate: of a request that is read and passes the first
checks. -/
def LoopState.started (dsha256 : Dsha256) (state : LoopState) : LoopEvent → List Share
  | .submit i now request =>
    match state.sessions[i]? with
    | none => []
    | some session =>
      match session.inFlight, validateStart dsha256 session.jobs session.en1 session.en2Size now
        (state.tmpl.map LiveTemplate.prevLe) request with
      | none, .ok _ => (session.describes request).toOption.toList
      | _, _ => []
  | _ => []

/-- All shares that a run starts to validate. -/
def runShares (dsha256 : Dsha256) : LoopState → List LoopEvent → List Share
  | _, [] => []
  | state, event :: rest =>
    state.started dsha256 event ++ runShares dsha256 (state.step dsha256 event) rest

/-! ## Headers on their way to the window -/

/-- The share was not credited yet. -/
def Stage.uncredited : Stage → Bool
  | .validating | .replying _ => true
  | .retuning _ | .renotifying _ => false

/-- The header of a session's submission, until it is credited. -/
def Session.waitingHeader (session : Session) : Option Bytes :=
  session.inFlight.bind fun submission =>
    if submission.stage.uncredited then some submission.pending.header else none

/-- The headers that wait. -/
def waitingHeaders (sessions : List Session) : List Bytes :=
  sessions.filterMap Session.waitingHeader

/-- The headers that were credited. -/
def LoopState.creditedHeaders (state : LoopState) : List Bytes := state.credits.map Credit.header

/-- The headers that are credited or wait. -/
def LoopState.headers (state : LoopState) : List Bytes :=
  state.creditedHeaders ++ waitingHeaders state.sessions

/-! ## What a step does with headers -/

/-- A step replaces one session.  What waits afterwards or was credited waited before or was
started by the step. -/
structure HeaderStep (state state' : LoopState) (i : ℕ) (session next : Session)
    (started credited : List Bytes) : Prop where
  sessions_eq : state'.sessions = state.sessions.set i next
  credited_eq : state'.creditedHeaders = state.creditedHeaders ++ credited
  balance : (next.waitingHeader.toList ++ credited).Subperm
    (session.waitingHeader.toList ++ started)

theorem HeaderStep.subperm {state state' : LoopState} {i : ℕ} {session next : Session}
    {started credited : List Bytes} (hsession : state.sessions[i]? = some session)
    (hstep : HeaderStep state state' i session next started credited) :
    state'.headers.Subperm (state.headers ++ started) := by
  have hset : (waitingHeaders state.sessions ++ next.waitingHeader.toList).Perm
      (waitingHeaders (state.sessions.set i next) ++ session.waitingHeader.toList) :=
    perm_filterMap_set Session.waitingHeader next hsession
  rw [LoopState.headers, LoopState.headers, hstep.sessions_eq, hstep.credited_eq,
    List.subperm_ext_iff]
  -- count a header on both sides
  intro header _
  have hcount := hset.count_eq header
  have hbalance := hstep.balance.count_le header
  simp only [List.count_append] at hcount hbalance ⊢
  omega

section Operations

variable {state : LoopState} {i : ℕ} {session : Session} {submission : Submission}

theorem headerStep_of_credits {state' : LoopState} {next : Session}
    (hsessions : state'.sessions = state.sessions.set i next)
    (hcredits : state'.credits = state.credits)
    (hwaiting : next.waitingHeader = session.waitingHeader ∨ next.waitingHeader = none) :
    HeaderStep state state' i session next [] [] := by
  refine ⟨hsessions, ?_, ?_⟩
  · rw [LoopState.creditedHeaders, LoopState.creditedHeaders, hcredits, List.append_nil]
  · rw [List.append_nil, List.append_nil]
    rcases hwaiting with hsame | hnone
    · rw [hsame]
    · rw [hnone]
      exact List.nil_subperm

theorem finish_frame (jid : ℕ) (verdict : Verdict) :
    (state.finish i session jid verdict).sessions =
        state.sessions.set i { session with inFlight := none } ∧
      (state.finish i session jid verdict).credits = state.credits := by
  unfold LoopState.finish
  split
  · split
    · exact ⟨rfl, rfl⟩
    · exact ⟨rfl, rfl⟩
  · exact ⟨rfl, rfl⟩

theorem creditedHeaders_credit (job : Job) :
    (state.credit session submission job).creditedHeaders = state.creditedHeaders ∨
      (state.credit session submission job).creditedHeaders =
        state.creditedHeaders ++ [submission.pending.header] := by
  unfold LoopState.credit
  split
  · exact .inr (List.map_append ..)
  · exact .inl rfl

theorem headerStep_credit {state' : LoopState} {next : Session} {job : Job}
    (hsessions : state'.sessions = (state.credit session submission job).sessions.set i next)
    (hcredits : state'.credits = (state.credit session submission job).credits)
    (hwaiting : session.waitingHeader = some submission.pending.header)
    (hnext : next.waitingHeader = none) :
    ∃ credited, HeaderStep state state' i session next [] credited := by
  have hheaders : state'.creditedHeaders =
      (state.credit session submission job).creditedHeaders := by
    rw [LoopState.creditedHeaders, LoopState.creditedHeaders, hcredits]
  rw [(credit_frame session submission job).1] at hsessions
  rcases creditedHeaders_credit job with hnone | hone
  · refine ⟨[], hsessions, ?_, ?_⟩
    · rw [hheaders, hnone, List.append_nil]
    · rw [hnext]
      exact List.nil_subperm
  · refine ⟨[submission.pending.header], hsessions, ?_, ?_⟩
    · rw [hheaders, hone]
    · rw [hnext, hwaiting]
      exact List.Subperm.refl _

theorem waitingHeader_of_inFlight (hflight : session.inFlight = some submission) :
    session.waitingHeader =
      if submission.stage.uncredited then some submission.pending.header else none := by
  rw [Session.waitingHeader, hflight, Option.bind_some]

theorem headerStep_resume (hflight : session.inFlight = some submission) (retune : Option ℚ) :
    state.resume i session submission retune = state ∨ ∃ next credited,
      HeaderStep state (state.resume i session submission retune) i session next [] credited := by
  have hwaiting := waitingHeader_of_inFlight hflight
  cases hstage : submission.stage with
  | validating => exact .inl (by simp only [LoopState.resume, hstage])
  | replying verdict =>
    rw [hstage] at hwaiting
    refine .inr ?_
    cases hjob : session.jobs.find submission.jid with
    | none =>
      simp only [LoopState.resume, hstage, hjob]
      exact ⟨{ session with inFlight := none }, [],
        headerStep_of_credits rfl rfl (.inr rfl)⟩
    | some job =>
      cases retune with
      | none =>
        simp only [LoopState.resume, hstage, hjob]
        obtain ⟨hsessions, hcredits⟩ := finish_frame submission.jid verdict
        exact ⟨_, headerStep_credit hsessions hcredits hwaiting rfl⟩
      | some diff =>
        simp only [LoopState.resume, hstage, hjob]
        exact ⟨{ session with
          diff, inFlight := some { submission with stage := .retuning verdict } },
          headerStep_credit rfl rfl hwaiting rfl⟩
  | retuning verdict =>
    -- the share was credited before this stage
    refine .inr ?_
    cases hnotify : notifySession state session with
    | error why =>
      simp only [LoopState.resume, hstage, hnotify]
      exact ⟨{ session with inFlight := none }, [],
        headerStep_of_credits rfl rfl (.inr rfl)⟩
    | ok next =>
      cases next with
      | none =>
        simp only [LoopState.resume, hstage, hnotify]
        obtain ⟨hsessions, hcredits⟩ := finish_frame submission.jid verdict
        exact ⟨_, [], headerStep_of_credits hsessions hcredits (.inr rfl)⟩
      | some next =>
        simp only [LoopState.resume, hstage, hnotify]
        exact ⟨{ next with
          inFlight := some { submission with stage := .renotifying verdict } }, [],
          headerStep_of_credits rfl rfl (.inr rfl)⟩
  | renotifying verdict =>
    simp only [LoopState.resume, hstage]
    obtain ⟨hsessions, hcredits⟩ := finish_frame submission.jid verdict
    exact .inr ⟨_, [], headerStep_of_credits hsessions hcredits (.inr rfl)⟩

theorem headerStep_answer (powHash : Option ℕ) (hflight : session.inFlight = some submission)
    (hstage : submission.stage = .validating) :
    ∃ next, HeaderStep state (state.answer dsha256 i session submission powHash) i session next
      [] [] := by
  have hwaiting := waitingHeader_of_inFlight hflight
  rw [hstage] at hwaiting
  unfold LoopState.answer
  cases hverdict : validateFinish dsha256 submission.pending powHash with
  | rejected why =>
    exact ⟨{ session with inFlight := none }, headerStep_of_credits rfl rfl (.inr rfl)⟩
  | share => exact ⟨_, headerStep_of_credits rfl rfl (.inl hwaiting.symm)⟩
  | block bytes hash =>
    exact ⟨{ session with
        inFlight := some { submission with stage := .replying (.block bytes hash) } },
      headerStep_of_credits rfl rfl (.inl hwaiting.symm)⟩

theorem headerStep_submit (hsession : state.sessions[i]? = some session) (now : ℤ)
    (request : Submit) :
    state.submit dsha256 i session now request = state ∨ ∃ next,
      HeaderStep state (state.submit dsha256 i session now request) i session next
        ((state.started dsha256 (.submit i now request)).map (Share.header dsha256)) [] := by
  unfold LoopState.submit
  split
  · rename_i jid hidle hjid
    split
    · exact .inl rfl
    · rename_i pending hstart
      obtain ⟨share, hshare, hheader⟩ := describes_of_validateStart hstart
      have hstarted : state.started dsha256 (.submit i now request) = [share] := by
        simp only [LoopState.started, hsession, hidle, hstart, hshare]
        rfl
      refine .inr ⟨_, rfl, (List.append_nil _).symm, ?_⟩
      rw [hstarted, List.append_nil, Session.waitingHeader, Session.waitingHeader, hidle]
      change ([pending.header] : List Bytes).Subperm [share.header dsha256]
      rw [hheader]
  · exact .inl rfl

/-- Every event of a session leaves the state as it is or is a step of its header. -/
theorem headerStep_sessionStep {event : LoopEvent} (hsession : state.sessions[i]? = some session)
    (hevent : event.session = some i) :
    state.sessionStep dsha256 i session event = state ∨ ∃ next credited,
      HeaderStep state (state.sessionStep dsha256 i session event) i session next
        ((state.started dsha256 event).map (Share.header dsha256)) credited := by
  cases event with
  | connect en1 diff => exact .inl rfl
  | template tmpl => exact .inl rfl
  | authorize j spk =>
    by_cases hidle : session.inFlight = none
    · simp only [LoopState.sessionStep, if_pos hidle]
      exact .inr ⟨_, [], headerStep_of_credits rfl rfl (.inl rfl)⟩
    · exact .inl (by simp only [LoopState.sessionStep, if_neg hidle])
  | notify j =>
    cases hnotify : notifySession state session with
    | error why => exact .inl (by simp only [LoopState.sessionStep, hnotify])
    | ok next =>
      cases next with
      | none => exact .inl (by simp only [LoopState.sessionStep, hnotify])
      | some next =>
        obtain ⟨job, rfl⟩ := notifySession_eq_some hnotify
        simp only [LoopState.sessionStep, hnotify]
        exact .inr ⟨_, [], headerStep_of_credits rfl rfl (.inl rfl)⟩
  | setDiff j diff =>
    exact .inr ⟨{ session with diff }, [], headerStep_of_credits rfl rfl (.inl rfl)⟩
  | submit j now request =>
    obtain rfl := Option.some.inj hevent
    rcases headerStep_submit hsession now request with hsame | ⟨next, hstep⟩
    · exact .inl hsame
    · exact .inr ⟨next, [], hstep⟩
  | powHash j hash =>
    cases hflight : session.inFlight with
    | none => exact .inl (by simp only [LoopState.sessionStep, hflight])
    | some submission =>
      by_cases hstage : submission.stage = .validating
      · simp only [LoopState.sessionStep, hflight, if_pos hstage]
        obtain ⟨next, hstep⟩ := headerStep_answer hash hflight hstage
        exact .inr ⟨next, [], hstep⟩
      · exact .inl (by simp only [LoopState.sessionStep, hflight, if_neg hstage])
  | resume j retune =>
    cases hflight : session.inFlight with
    | none => exact .inl (by simp only [LoopState.sessionStep, hflight])
    | some submission =>
      simp only [LoopState.sessionStep, hflight]
      exact headerStep_resume hflight retune

end Operations

/-! ## Runs -/

/-- **One event.** Headers that are credited or wait were there before or are of the share that
the event started. -/
theorem headers_step (state : LoopState) (event : LoopEvent) :
    (state.step dsha256 event).headers.Subperm
      (state.headers ++ (state.started dsha256 event).map (Share.header dsha256)) := by
  have hkept : state.headers.Subperm
      (state.headers ++ (state.started dsha256 event).map (Share.header dsha256)) :=
    (List.sublist_append_left _ _).subperm
  cases hevent : event.session with
  | none =>
    cases event with
    | connect en1 diff =>
      have hnone : waitingHeaders (state.sessions ++ [{ en1 := en1, diff }]) =
          waitingHeaders state.sessions := by
        rw [waitingHeaders, List.filterMap_append]
        exact List.append_nil _
      change (state.creditedHeaders ++
        waitingHeaders (state.sessions ++ [{ en1 := en1, diff }])).Subperm _
      rw [hnone]
      exact hkept
    | template tmpl => exact hkept
    | _ => cases hevent
  | some i =>
    rw [step_of_session hevent]
    cases hsession : state.sessions[i]? with
    | none => exact hkept
    | some session =>
      dsimp only
      rcases headerStep_sessionStep hsession hevent with hsame | ⟨next, credited, hstep⟩
      · rw [hsame]
        exact hkept
      · exact hstep.subperm hsession

/-- **Runs.** So are those after a run. -/
theorem headers_run (events : List LoopEvent) (state : LoopState) :
    (state.run dsha256 events).headers.Subperm
      (state.headers ++ (runShares dsha256 state events).map (Share.header dsha256)) := by
  induction events generalizing state with
  | nil =>
    rw [runShares, List.map_nil, List.append_nil]
    exact List.Subperm.refl _
  | cons event rest ih =>
    rw [runShares, List.map_append, ← List.append_assoc]
    exact (ih (state.step dsha256 event)).trans
      ((List.subperm_append_right _).mpr (headers_step state event))

/-- **Distinct shares.**  If all accepted requests describe different shares and their roots do not
collide, no header is credited to the window twice. -/
theorem credited_headers_nodup (dsha256 : Dsha256) (settings : Settings) (window : PplnsWindow)
    (events : List LoopEvent)
    (hdistinct : (runShares dsha256 (.start settings window) events).Nodup)
    (hroots : RootsApart dsha256 (runShares dsha256 (.start settings window) events)) :
    ((LoopState.start settings window).run dsha256 events).creditedHeaders.Nodup := by
  obtain ⟨headers, hperm, hsublist⟩ :=
    @headers_run dsha256 events (.start settings window)
  have hheaders : ((LoopState.start settings window).run dsha256 events).headers.Nodup :=
    hperm.nodup_iff.mp (hsublist.nodup (hroots.nodup_headers hdistinct))
  exact (List.nodup_append.mp hheaders).1

/-! ## A replayed share -/

/-- PPLNS without a fee. -/
def sharedSettings : Settings := ⟨false, true, 0, none, 10000, 100⟩

/-- A pool that starts with an empty window. -/
def sharedStart : LoopState := .start sharedSettings { factor := 2 }

/-- A miner with one job. -/
def sharedSetup : List LoopEvent :=
  .connect [1, 2, 3, 4] 1 :: .authorize 0 (some (Script.v3Output (List.replicate 32 1))) ::
    .template ⟨List.replicate 32 9, 50000, 20, 0x20000000, 0x1b00ffff, 100, [], [], []⟩ ::
    .notify 0 :: []

/-- A share that is no block. -/
def shareEvents : List LoopEvent :=
  .submit 0 200 ⟨some 1, some [5, 6, 7, 8], some 150, some 77, none⟩ ::
    .powHash 0 (some (2 ^ 210)) :: .resume 0 none :: []

/-- The same request twice. -/
theorem replayed_share_credited_twice :
    ∃ header,
      (((sharedStart.run sumDsha256 sharedSetup).run sumDsha256 shareEvents).run sumDsha256
        shareEvents).creditedHeaders = [header, header] ∧
      (((sharedStart.run sumDsha256 sharedSetup).run sumDsha256 shareEvents).run sumDsha256
        shareEvents).window.shares.length = 2 := by
  refine ⟨(((sharedStart.run sumDsha256 sharedSetup).run sumDsha256 shareEvents).run sumDsha256
    shareEvents).creditedHeaders.headD [], ?_⟩
  decide +kernel

/-- Two miners with a job each.  Their submissions overlap, and the first one sends a second
share with another nonce. -/
def twoMinerEvents : List LoopEvent :=
  sharedSetup ++
  [.connect [5, 6, 7, 8] 1, .authorize 1 (some (Script.v3Output (List.replicate 32 2))), .notify 1,
    .submit 0 200 ⟨some 1, some [5, 6, 7, 8], some 150, some 77, none⟩,
    .submit 1 200 ⟨some 1, some [5, 6, 7, 8], some 150, some 77, none⟩,
    .powHash 1 (some (2 ^ 210)), .powHash 0 (some (2 ^ 210)), .resume 0 none, .resume 1 none,
    .submit 0 201 ⟨some 1, some [5, 6, 7, 8], some 150, some 78, none⟩,
    .powHash 0 (some (2 ^ 210)), .resume 0 none]

theorem runShares_twoMinerEvents :
    (runShares sumDsha256 sharedStart twoMinerEvents).Nodup ∧
      RootsApart sumDsha256 (runShares sumDsha256 sharedStart twoMinerEvents) ∧
      (sharedStart.run sumDsha256 twoMinerEvents).creditedHeaders.length = 3 := by
  decide +kernel

theorem three_shares_credited_once :
    (sharedStart.run sumDsha256 twoMinerEvents).creditedHeaders.length = 3 ∧
      (sharedStart.run sumDsha256 twoMinerEvents).creditedHeaders.Nodup :=
  ⟨runShares_twoMinerEvents.2.2,
    credited_headers_nodup sumDsha256 sharedSettings { factor := 2 } twoMinerEvents
      runShares_twoMinerEvents.1 runShares_twoMinerEvents.2.1⟩

end XCoin.Pool
