import XCoin.Pool.SolvedBlock

/-!
# The shared template

`Jobs.refresh` runs in worker threads and `Session.notify` on the event loop.  They share the
fields `tmpl`, `branch_le` and `tx_hashes_le` without a lock.  Every read and every assignment of
a shared field is one step here; a call is the list of its accesses with the local values it
carries between them, and a run interleaves the steps of any number of calls.

`refresh` assigns the branch before the template, so a `notify` in between pairs the old
template with the new branch.  Runs that keep such accesses apart issue only jobs whose branch
belongs to their template.
-/

namespace XCoin.Pool

open Consensus

/-! ## State -/

/-- What matters of a template here: the previous block and the ids of the transactions. -/
structure Template where
  previousblockhash : Uint256
  txids : List Uint256
deriving DecidableEq, Repr

/-- The bytes that `refresh` hashes. -/
def Template.txHashesLe (tmpl : Template) : List Bytes := tmpl.txids.map serializeUint256

/-- The fields of `JOBS`. -/
structure Shared where
  tmpl : Option Template := none
  branchLe : List Bytes := []
  txHashesLe : List Bytes := []
deriving DecidableEq, Repr

/-- Where a call is, with its local values.  `fetched` is the template that the node returned. -/
inductive Call where
  /-- `refresh` before `if self.tmpl` -/
  | refreshTest (fetched : Template)
  /-- before it reads the previous block of `self.tmpl` -/
  | refreshPrev (fetched : Template)
  /-- before it reads the transactions of `self.tmpl` -/
  | refreshTxids (fetched : Template)
  /-- before it assigns `self.tmpl` for the same transactions -/
  | refreshSame (fetched : Template)
  /-- before it assigns `self.tx_hashes_le` -/
  | refreshHashes (fetched : Template)
  /-- before it reads `self.tx_hashes_le` back -/
  | refreshLayer (fetched : Template)
  /-- before it assigns `self.branch_le` -/
  | refreshBranch (fetched : Template) (branch : List Bytes)
  /-- before it assigns `self.tmpl` -/
  | refreshTmpl (fetched : Template)
  /-- `notify` before it reads `JOBS.tmpl` -/
  | notifyTmpl
  /-- before it reads the branch that the job keeps -/
  | notifyStored (tmpl : Template)
  /-- before it reads the branch that is sent -/
  | notifySent (tmpl : Template) (stored : List Bytes)
  | done
deriving DecidableEq, Repr

/-- A job as it was stored and sent. -/
structure Issued where
  tmpl : Template
  stored : List Bytes
  sent : List Bytes
deriving DecidableEq, Repr

/-- The pool, its calls under way and the jobs issued. -/
structure PoolState where
  shared : Shared := {}
  calls : List Call := []
  issued : List Issued := []
deriving DecidableEq, Repr

/-! ## Steps -/

/-- The next access of a call, and the job it issues if it was the last one of a `notify`. -/
def access (dsha256 : Dsha256) (shared : Shared) : Call → Shared × Call × List Issued
  | .refreshTest fetched =>
    (shared, if shared.tmpl.isSome then .refreshPrev fetched else .refreshHashes fetched, [])
  | .refreshPrev fetched =>
    (shared, if shared.tmpl.map Template.previousblockhash = some fetched.previousblockhash then
      .refreshTxids fetched else .refreshHashes fetched, [])
  | .refreshTxids fetched =>
    (shared, if shared.tmpl.map Template.txids = some fetched.txids then .refreshSame fetched
      else .refreshHashes fetched, [])
  | .refreshSame fetched => ({ shared with tmpl := some fetched }, .done, [])
  | .refreshHashes fetched =>
    ({ shared with txHashesLe := fetched.txHashesLe }, .refreshLayer fetched, [])
  | .refreshLayer fetched =>
    (shared, .refreshBranch fetched (coinbaseBranch dsha256 shared.txHashesLe), [])
  | .refreshBranch fetched branch =>
    ({ shared with branchLe := branch }, .refreshTmpl fetched, [])
  | .refreshTmpl fetched => ({ shared with tmpl := some fetched }, .done, [])
  | .notifyTmpl =>
    (shared, match shared.tmpl with | none => .done | some tmpl => .notifyStored tmpl, [])
  | .notifyStored tmpl => (shared, .notifySent tmpl shared.branchLe, [])
  | .notifySent tmpl stored => (shared, .done, [⟨tmpl, stored, shared.branchLe⟩])
  | .done => (shared, .done, [])

/-- What can happen to the pool. -/
inductive Event where
  /-- a worker thread got this template from the node -/
  | refresh (fetched : Template)
  | notify
  /-- the call with this number makes its next access -/
  | advance (call : ℕ)
deriving DecidableEq, Repr

/-- One event. -/
def step (dsha256 : Dsha256) (state : PoolState) : Event → PoolState
  | .refresh fetched => { state with calls := state.calls ++ [.refreshTest fetched] }
  | .notify => { state with calls := state.calls ++ [.notifyTmpl] }
  | .advance call =>
    match state.calls[call]? with
    | none => state
    | some current =>
      let (shared, next, jobs) := access dsha256 state.shared current
      ⟨shared, state.calls.set call next, state.issued ++ jobs⟩

/-- A run from the empty pool. -/
def run (dsha256 : Dsha256) (events : List Event) : PoolState :=
  events.foldl (step dsha256) {}

/-! ## Accesses kept apart -/

/-- A `refresh` that has made an access and not its last one. -/
def Call.inRefresh : Call → Bool
  | .refreshPrev _ | .refreshTxids _ | .refreshSame _ | .refreshHashes _ | .refreshLayer _
  | .refreshBranch _ _ | .refreshTmpl _ => true
  | _ => false

/-- A `refresh` that has assigned the branch and not yet the template. -/
def Call.betweenWrites : Call → Bool
  | .refreshTmpl _ => true
  | _ => false

/-- A `notify` that has read the template and not yet both branches. -/
def Call.inNotify : Call → Bool
  | .notifyStored _ | .notifySent _ _ => true
  | _ => false

/-- The accesses that must wait: a `refresh` starts when no other is under way, it assigns the
branch when no `notify` is under way, and a `notify` reads the template when no `refresh` is between
its two assignments. -/
def Call.MayAdvance (calls : List Call) : Call → Prop
  | .refreshTest _ => ∀ other ∈ calls, other.inRefresh = false
  | .refreshBranch _ _ => ∀ other ∈ calls, other.inNotify = false
  | .notifyTmpl => ∀ other ∈ calls, other.betweenWrites = false
  | _ => True

instance (calls : List Call) : (call : Call) → Decidable (call.MayAdvance calls)
  | .refreshTest _ => inferInstanceAs (Decidable (∀ other ∈ calls, other.inRefresh = false))
  | .refreshBranch _ _ => inferInstanceAs (Decidable (∀ other ∈ calls, other.inNotify = false))
  | .notifyTmpl => inferInstanceAs (Decidable (∀ other ∈ calls, other.betweenWrites = false))
  | .refreshPrev _ | .refreshTxids _ | .refreshSame _ | .refreshHashes _ | .refreshLayer _
  | .refreshTmpl _ | .notifyStored _ | .notifySent _ _ | .done => inferInstanceAs (Decidable True)

/-- The step does not interleave with another call's. -/
def StepApart (state : PoolState) : Event → Prop
  | .advance call => ∀ current ∈ state.calls[call]?, current.MayAdvance state.calls
  | _ => True

instance (state : PoolState) : (event : Event) → Decidable (StepApart state event)
  | .advance call =>
    inferInstanceAs (Decidable (∀ current ∈ state.calls[call]?, current.MayAdvance state.calls))
  | .refresh _ | .notify => inferInstanceAs (Decidable True)

/-- Every step of a run keeps the accesses apart. -/
def RunApart (dsha256 : Dsha256) : PoolState → List Event → Prop
  | _, [] => True
  | state, event :: rest =>
    StepApart state event ∧ RunApart dsha256 (step dsha256 state event) rest

instance RunApart.decide (dsha256 : Dsha256) :
    (state : PoolState) → (events : List Event) → Decidable (RunApart dsha256 state events)
  | _, [] => inferInstanceAs (Decidable True)
  | state, event :: rest =>
    have := RunApart.decide dsha256 (step dsha256 state event) rest
    inferInstanceAs (Decidable (_ ∧ _))

/-! ## The invariant -/

variable {dsha256 : Dsha256} {call : Call}

/-- The branch of a template. -/
def Template.branch (dsha256 : Dsha256) (tmpl : Template) : List Bytes :=
  coinbaseBranch dsha256 tmpl.txHashesLe

/-- The job keeps and sends the branch of its own template. -/
structure Issued.Matches (dsha256 : Dsha256) (job : Issued) : Prop where
  stored : job.stored = job.tmpl.branch dsha256
  sent : job.sent = job.tmpl.branch dsha256

/-- What the local values of a call say about the shared fields. -/
def Call.Agrees (dsha256 : Dsha256) (shared : Shared) : Call → Prop
  | .refreshSame fetched => shared.tmpl.map Template.txids = some fetched.txids
  | .refreshLayer fetched => shared.txHashesLe = fetched.txHashesLe
  | .refreshBranch fetched branch => branch = fetched.branch dsha256
  | .refreshTmpl fetched => shared.branchLe = fetched.branch dsha256
  | .notifyStored tmpl => shared.branchLe = tmpl.branch dsha256
  | .notifySent tmpl stored =>
    stored = tmpl.branch dsha256 ∧ shared.branchLe = tmpl.branch dsha256
  | _ => True

/-- The shared branch belongs to the shared template. -/
def Shared.Whole (dsha256 : Dsha256) (shared : Shared) : Prop :=
  ∀ tmpl, shared.tmpl = some tmpl → shared.branchLe = tmpl.branch dsha256

/-- The invariant of runs without interleaving. -/
structure Consistent (dsha256 : Dsha256) (state : PoolState) : Prop where
  alone : ∀ (i j : ℕ) (c c' : Call), state.calls[i]? = some c → state.calls[j]? = some c' →
    c.inRefresh = true → c'.inRefresh = true → i = j
  agrees : ∀ (i : ℕ) (c : Call), state.calls[i]? = some c → c.Agrees dsha256 state.shared
  apart : ∀ (i j : ℕ) (c c' : Call), state.calls[i]? = some c → state.calls[j]? = some c' →
    c.betweenWrites = true → c'.inNotify = false
  whole : (∀ c ∈ state.calls, c.betweenWrites = false) → state.shared.Whole dsha256
  issued : ∀ job ∈ state.issued, job.Matches dsha256

theorem Call.inRefresh_of_betweenWrites (h : call.betweenWrites = true) :
    call.inRefresh = true := by
  cases call with
  | refreshTmpl fetched => rfl
  | _ => cases h

/-- A call that is no `refresh` under way only looks at the branch. -/
theorem Call.Agrees.frame {shared shared' : Shared} (h : call.Agrees dsha256 shared)
    (hrefresh : call.inRefresh = false) (hbranch : shared'.branchLe = shared.branchLe) :
    call.Agrees dsha256 shared' := by
  cases call with
  | notifyStored tmpl => exact hbranch.trans h
  | notifySent tmpl stored => exact ⟨h.1, hbranch.trans h.2⟩
  | refreshTest | notifyTmpl | done => trivial
  | _ => cases hrefresh

theorem Call.agrees_of_idle {shared : Shared} (hrefresh : call.inRefresh = false)
    (hnotify : call.inNotify = false) : call.Agrees dsha256 shared := by
  cases call with
  | refreshTest | notifyTmpl | done => trivial
  | notifyStored | notifySent => cases hnotify
  | _ => cases hrefresh

theorem consistent_initial : Consistent dsha256 {} where
  alone i j c c' hi := by cases hi
  agrees i c hi := by cases hi
  apart i j c c' hi := by cases hi
  whole _ tmpl htmpl := by cases htmpl
  issued job hjob := by cases hjob

/-! ## One access -/

section Access

variable {shared : Shared} {current : Call}

/-- The call after its next access. -/
def Call.next (dsha256 : Dsha256) (shared : Shared) (current : Call) : Call :=
  (access dsha256 shared current).2.1

/-- The shared fields after it. -/
def Call.writes (dsha256 : Dsha256) (shared : Shared) (current : Call) : Shared :=
  (access dsha256 shared current).1

/-- The job it issues. -/
def Call.issues (dsha256 : Dsha256) (shared : Shared) (current : Call) : List Issued :=
  (access dsha256 shared current).2.2

/-- The first three accesses of a `refresh` read the template and choose the branch of the code. -/
inductive Call.Reads (fetched : Template) : Call → Prop
  | test : Reads fetched (.refreshTest fetched)
  | prev : Reads fetched (.refreshPrev fetched)
  | txids : Reads fetched (.refreshTxids fetched)

theorem Call.Reads.next {fetched : Template} (h : current.Reads fetched) :
    current.next dsha256 shared = .refreshPrev fetched ∨
      current.next dsha256 shared = .refreshTxids fetched ∨
      (current.next dsha256 shared = .refreshSame fetched ∧
        shared.tmpl.map Template.txids = some fetched.txids) ∨
      current.next dsha256 shared = .refreshHashes fetched := by
  cases h with
  | test =>
    by_cases hsome : shared.tmpl.isSome = true
    · exact .inl (if_pos hsome)
    · exact .inr (.inr (.inr (if_neg hsome)))
  | prev =>
    by_cases hsame : shared.tmpl.map Template.previousblockhash = some fetched.previousblockhash
    · exact .inr (.inl (if_pos hsame))
    · exact .inr (.inr (.inr (if_neg hsame)))
  | txids =>
    by_cases hsame : shared.tmpl.map Template.txids = some fetched.txids
    · exact .inr (.inr (.inl ⟨if_pos hsame, hsame⟩))
    · exact .inr (.inr (.inr (if_neg hsame)))

theorem Call.Reads.next_idle {fetched : Template} (h : current.Reads fetched) :
    (current.next dsha256 shared).betweenWrites = false ∧
      (current.next dsha256 shared).inNotify = false := by
  have hcases : current.next dsha256 shared = .refreshPrev fetched ∨ _ := h.next
  rcases hcases with hn | hn | ⟨hn, -⟩ | hn
  · rw [hn]; exact ⟨rfl, rfl⟩
  · rw [hn]; exact ⟨rfl, rfl⟩
  · rw [hn]; exact ⟨rfl, rfl⟩
  · rw [hn]; exact ⟨rfl, rfl⟩

theorem Call.writes_eq (h : current.inRefresh = false) :
    current.writes dsha256 shared = shared := by
  cases current with
  | refreshTest | notifyTmpl | notifyStored | notifySent | done => rfl
  | _ => cases h

theorem Call.writes_branchLe (h : ∀ fetched branch, current ≠ .refreshBranch fetched branch) :
    (current.writes dsha256 shared).branchLe = shared.branchLe := by
  cases current with
  | refreshBranch fetched branch => exact absurd rfl (h fetched branch)
  | _ => rfl

theorem Call.inRefresh_of_next (h : (current.next dsha256 shared).inRefresh = true) :
    current.inRefresh = true ∨ ∃ fetched, current = .refreshTest fetched := by
  cases current with
  | refreshTest fetched => exact .inr ⟨fetched, rfl⟩
  | notifyTmpl =>
    cases htmpl : shared.tmpl with
    | none => simp [Call.next, access, htmpl, Call.inRefresh] at h
    | some tmpl => simp [Call.next, access, htmpl, Call.inRefresh] at h
  | notifyStored | notifySent | done => cases h
  | _ => exact .inl rfl

theorem Call.refreshBranch_of_next (h : (current.next dsha256 shared).betweenWrites = true) :
    ∃ fetched branch, current = .refreshBranch fetched branch := by
  cases current with
  | refreshBranch fetched branch => exact ⟨fetched, branch, rfl⟩
  | refreshTest fetched =>
    rw [(Call.Reads.next_idle .test).1] at h
    cases h
  | refreshPrev fetched =>
    rw [(Call.Reads.next_idle .prev).1] at h
    cases h
  | refreshTxids fetched =>
    rw [(Call.Reads.next_idle .txids).1] at h
    cases h
  | notifyTmpl =>
    cases htmpl : shared.tmpl with
    | none => simp [Call.next, access, htmpl, Call.betweenWrites] at h
    | some tmpl => simp [Call.next, access, htmpl, Call.betweenWrites] at h
  | _ => cases h

theorem Call.inNotify_of_next (h : (current.next dsha256 shared).inNotify = true) :
    current.inNotify = true ∨ current = .notifyTmpl := by
  cases current with
  | notifyTmpl => exact .inr rfl
  | notifyStored tmpl => exact .inl rfl
  | refreshTest fetched =>
    rw [(Call.Reads.next_idle .test).2] at h
    cases h
  | refreshPrev fetched =>
    rw [(Call.Reads.next_idle .prev).2] at h
    cases h
  | refreshTxids fetched =>
    rw [(Call.Reads.next_idle .txids).2] at h
    cases h
  | _ => cases h

/-- The local values agree with the shared fields after an access if they did before; the
template that a `notify` reads must have its branch beside it. -/
theorem Call.Agrees.next (h : current.Agrees dsha256 shared)
    (hwhole : current = .notifyTmpl → shared.Whole dsha256) :
    (current.next dsha256 shared).Agrees dsha256 (current.writes dsha256 shared) := by
  cases current with
  | refreshTest fetched =>
    unfold Call.next access
    dsimp only
    split_ifs <;> trivial
  | refreshPrev fetched =>
    unfold Call.next access
    dsimp only
    split_ifs <;> trivial
  | refreshTxids fetched =>
    unfold Call.next access
    dsimp only
    split_ifs with hsame
    · exact hsame
    · trivial
  | refreshLayer fetched =>
    change coinbaseBranch dsha256 shared.txHashesLe = fetched.branch dsha256
    rw [h, Template.branch]
  | refreshHashes fetched => rfl
  | refreshBranch fetched branch => exact h
  | notifyTmpl =>
    cases htmpl : shared.tmpl with
    | none => simp [Call.next, access, htmpl, Call.Agrees]
    | some tmpl =>
      have hbranch := hwhole rfl tmpl htmpl
      simpa [Call.next, Call.writes, access, htmpl, Call.Agrees] using hbranch
  | notifyStored tmpl => exact ⟨h, h⟩
  | refreshSame | refreshTmpl | notifySent | done => trivial

theorem Call.Agrees.issues (h : current.Agrees dsha256 shared) :
    ∀ job ∈ current.issues dsha256 shared, job.Matches dsha256 := by
  intro job hjob
  cases current with
  | notifySent tmpl stored =>
    rw [List.mem_singleton.mp hjob]
    exact ⟨h.1, h.2⟩
  | _ => cases hjob

end Access

/-! ## Steps and runs -/

theorem getElem?_set_cases {calls : List Call} {i j : ℕ} {next c : Call}
    (h : (calls.set i next)[j]? = some c) : (j = i ∧ c = next) ∨ (j ≠ i ∧ calls[j]? = some c) := by
  by_cases hsame : j = i
  · subst hsame
    rw [List.getElem?_set_self'] at h
    cases hcall : calls[j]? with
    | none => simp [hcall] at h
    | some old => exact .inl ⟨rfl, by simpa [hcall] using h.symm⟩
  · rw [List.getElem?_set_ne (Ne.symm hsame)] at h
    exact .inr ⟨hsame, h⟩

theorem getElem?_snoc_cases {calls : List Call} {j : ℕ} {new c : Call}
    (h : (calls ++ [new])[j]? = some c) : calls[j]? = some c ∨ c = new := by
  rcases Nat.lt_or_ge j calls.length with hin | hout
  · rw [List.getElem?_append_left hin] at h
    exact .inl h
  · rw [List.getElem?_append_right hout] at h
    exact .inr (List.mem_singleton.mp (List.mem_of_getElem? h))

theorem Call.inNotify_of_betweenWrites (h : call.betweenWrites = true) : call.inNotify = false := by
  cases call with
  | refreshTmpl fetched => rfl
  | _ => cases h

theorem Consistent.start {state : PoolState} (h : Consistent dsha256 state) {new : Call}
    (hrefresh : new.inRefresh = false) (hnotify : new.inNotify = false) :
    Consistent dsha256 { state with calls := state.calls ++ [new] } where
  alone i j c c' hi hj hc hc' := by
    rcases getElem?_snoc_cases hi with hi | rfl
    · rcases getElem?_snoc_cases hj with hj | rfl
      · exact h.alone i j c c' hi hj hc hc'
      · exact absurd hc' (by rw [hrefresh]; exact Bool.false_ne_true)
    · exact absurd hc (by rw [hrefresh]; exact Bool.false_ne_true)
  agrees i c hi := by
    rcases getElem?_snoc_cases hi with hi | rfl
    · exact h.agrees i c hi
    · exact Call.agrees_of_idle hrefresh hnotify
  apart i j c c' hi hj hc := by
    rcases getElem?_snoc_cases hj with hj | rfl
    · rcases getElem?_snoc_cases hi with hi | rfl
      · exact h.apart i j c c' hi hj hc
      · exact absurd (Call.inRefresh_of_betweenWrites hc)
          (by rw [hrefresh]; exact Bool.false_ne_true)
    · exact hnotify
  whole hnone := h.whole fun c hc => hnone c (List.mem_append_left _ hc)
  issued := h.issued

section Advance

variable {state : PoolState} {i : ℕ} {current : Call}

theorem Consistent.others_idle (h : Consistent dsha256 state)
    (hcall : state.calls[i]? = some current) (hcurrent : current.inRefresh = true) {j : ℕ}
    {c : Call} (hother : j ≠ i) (hj : state.calls[j]? = some c) : c.inRefresh = false := by
  by_contra hc
  exact hother (h.alone j i c current hj hcall (by simpa using hc) hcurrent)

theorem Consistent.agrees_others (h : Consistent dsha256 state)
    (hcall : state.calls[i]? = some current) (hmay : current.MayAdvance state.calls) {j : ℕ}
    {c : Call} (hother : j ≠ i) (hj : state.calls[j]? = some c) :
    c.Agrees dsha256 (current.writes dsha256 state.shared) := by
  have hagrees := h.agrees j c hj
  cases hcurrent : current.inRefresh with
  | false =>
    rw [Call.writes_eq hcurrent]
    exact hagrees
  | true =>
    have hidle := h.others_idle hcall hcurrent hother hj
    by_cases hbranch : ∃ fetched branch, current = .refreshBranch fetched branch
    · -- the branch is assigned only while no `notify` looks at it
      obtain ⟨fetched, branch, rfl⟩ := hbranch
      exact Call.agrees_of_idle hidle (hmay c (List.mem_of_getElem? hj))
    · apply hagrees.frame hidle
      exact Call.writes_branchLe fun fetched branch heq => hbranch ⟨fetched, branch, heq⟩

/-- The branch belongs to the template again when the `refresh` has assigned both. -/
theorem Consistent.whole_advance (h : Consistent dsha256 state)
    (hcall : state.calls[i]? = some current)
    (hnone : ∀ c ∈ state.calls.set i (current.next dsha256 state.shared),
      c.betweenWrites = false) : (current.writes dsha256 state.shared).Whole dsha256 := by
  have hagrees := h.agrees i current hcall
  have hlt : i < state.calls.length := (List.getElem?_eq_some_iff.mp hcall).1
  have hold (hcurrent : current.betweenWrites = false) : state.shared.Whole dsha256 := by
    apply h.whole
    intro c hc
    obtain ⟨j, hj⟩ := List.mem_iff_getElem?.mp hc
    by_cases hsame : j = i
    · rw [hsame, hcall] at hj
      rw [← Option.some.inj hj]
      exact hcurrent
    · apply hnone
      apply List.mem_iff_getElem?.mpr
      exact ⟨j, by rw [List.getElem?_set_ne (Ne.symm hsame)]; exact hj⟩
  cases current with
  | refreshSame fetched =>
    intro tmpl htmpl
    obtain rfl := Option.some.inj htmpl
    obtain ⟨live, hlive, htxids⟩ := Option.map_eq_some_iff.mp hagrees
    have hbranch := hold rfl live hlive
    change state.shared.branchLe = fetched.branch dsha256
    rw [hbranch, Template.branch, Template.branch, Template.txHashesLe, Template.txHashesLe,
      htxids]
  | refreshTmpl fetched =>
    intro tmpl htmpl
    obtain rfl := Option.some.inj htmpl
    exact hagrees
  | refreshBranch fetched branch =>
    have hbetween := hnone (.refreshTmpl fetched) (List.mem_set hlt _)
    cases hbetween
  | _ => exact hold rfl

/-- An access that does not have to wait keeps the fields together. -/
theorem Consistent.advance (h : Consistent dsha256 state)
    (hcall : state.calls[i]? = some current) (hmay : current.MayAdvance state.calls) :
    Consistent dsha256 ⟨current.writes dsha256 state.shared,
      state.calls.set i (current.next dsha256 state.shared),
      state.issued ++ current.issues dsha256 state.shared⟩ := by
  -- no other call is a `refresh` under way if this one is after its access
  have hnext : ∀ j c, j ≠ i → state.calls[j]? = some c →
      (current.next dsha256 state.shared).inRefresh = true → c.inRefresh = false := by
    intro j c hother hj hrefresh
    rcases Call.inRefresh_of_next hrefresh with hcurrent | ⟨fetched, rfl⟩
    · exact h.others_idle hcall hcurrent hother hj
    · exact hmay c (List.mem_of_getElem? hj)
  refine ⟨?_, ?_, ?_, h.whole_advance hcall, ?_⟩
  · intro a b c c' ha hb hc hc'
    rcases getElem?_set_cases ha with ⟨rfl, rfl⟩ | ⟨hane, haold⟩
    · rcases getElem?_set_cases hb with ⟨rfl, -⟩ | ⟨hbne, hbold⟩
      · rfl
      · rw [hnext b c' hbne hbold hc] at hc'
        cases hc'
    · rcases getElem?_set_cases hb with ⟨rfl, rfl⟩ | ⟨hbne, hbold⟩
      · rw [hnext a c hane haold hc'] at hc
        cases hc
      · exact h.alone a b c c' haold hbold hc hc'
  · intro j c hj
    rcases getElem?_set_cases hj with ⟨rfl, rfl⟩ | ⟨hother, hj⟩
    · refine (h.agrees j current hcall).next fun hnotify => ?_
      subst hnotify
      exact h.whole hmay
    · exact h.agrees_others hcall hmay hother hj
  · intro a b c c' ha hb hc
    rcases getElem?_set_cases ha with ⟨rfl, rfl⟩ | ⟨hane, haold⟩
    · obtain ⟨fetched, branch, rfl⟩ := Call.refreshBranch_of_next hc
      rcases getElem?_set_cases hb with ⟨-, rfl⟩ | ⟨-, hbold⟩
      · exact Call.inNotify_of_betweenWrites hc
      · exact hmay c' (List.mem_of_getElem? hbold)
    · rcases getElem?_set_cases hb with ⟨rfl, rfl⟩ | ⟨-, hbold⟩
      · by_contra hnotify
        rcases Call.inNotify_of_next (by simpa using hnotify) with hcurrent | rfl
        · rw [h.apart a b c current haold hcall hc] at hcurrent
          cases hcurrent
        · rw [hmay c (List.mem_of_getElem? haold)] at hc
          cases hc
      · exact h.apart a b c c' haold hbold hc
  · intro job hjob
    rcases List.mem_append.mp hjob with hold | hnew
    · exact h.issued job hold
    · exact (h.agrees i current hcall).issues job hnew

end Advance

theorem Consistent.step {state : PoolState} (h : Consistent dsha256 state) {event : Event}
    (hapart : StepApart state event) : Consistent dsha256 (Pool.step dsha256 state event) := by
  cases event with
  | refresh fetched => exact h.start rfl rfl
  | notify => exact h.start rfl rfl
  | advance call =>
    cases hcall : state.calls[call]? with
    | none =>
      have hsame : Pool.step dsha256 state (.advance call) = state := by
        simp only [Pool.step, hcall]
      rw [hsame]
      exact h
    | some current =>
      have hnext : Pool.step dsha256 state (.advance call) =
          ⟨current.writes dsha256 state.shared,
            state.calls.set call (current.next dsha256 state.shared),
            state.issued ++ current.issues dsha256 state.shared⟩ := by
        simp only [Pool.step, hcall]
        rfl
      rw [hnext]
      exact h.advance hcall (hapart current hcall)

theorem Consistent.run :
    ∀ (events : List Event) (state : PoolState), Consistent dsha256 state →
      RunApart dsha256 state events →
      Consistent dsha256 (events.foldl (Pool.step dsha256) state) := by
  intro events
  induction events with
  | nil =>
    intro state h _
    exact h
  | cons event rest ih =>
    intro state h hapart
    exact ih _ (h.step hapart.1) hapart.2

/-- **Jobs of runs that keep the accesses apart.**  Every job keeps and sends the branch of its
own template, and the root it gives for any coinbase is the root of that coinbase and the
template's transactions. -/
theorem issued_matches_of_runApart (dsha256 : Dsha256) (events : List Event)
    (hapart : RunApart dsha256 {} events) :
    ∀ job ∈ (run dsha256 events).issued,
      job.Matches dsha256 ∧ ∀ coinbase : Uint256,
        job.stored.foldl (fun root sib => dsha256.hash (root ++ sib))
            (serializeUint256 coinbase) =
          serializeUint256 (dsha256.computeMerkleRoot (coinbase :: job.tmpl.txids)) := by
  intro job hjob
  have hmatches := (Consistent.run events {} consistent_initial hapart).issued job hjob
  refine ⟨hmatches, fun coinbase => ?_⟩
  rw [hmatches.stored, Template.branch, Template.txHashesLe, foldl_coinbaseBranch]

/-! ## The race -/

/-- A template of one transaction. -/
def oneTx : Template := ⟨1#256, [5#256]⟩

/-- A template of two transactions. -/
def twoTxs : Template := ⟨1#256, [6#256, 7#256]⟩

/-- So many accesses of one call, then the rest. -/
def advances (call : ℕ) : ℕ → List Event → List Event
  | 0, rest => rest
  | times + 1, rest => .advance call :: advances call times rest

/-- A first template; then a `notify` while the second `refresh` is between its assignments. -/
def tornRun : List Event :=
  .refresh oneTx :: advances 0 5 (.refresh twoTxs :: advances 1 6 (.notify :: advances 2 3 []))

theorem tornRun_issued :
    (run sumDsha256 tornRun).issued =
      [⟨oneTx, twoTxs.branch sumDsha256, twoTxs.branch sumDsha256⟩] := by
  decide +kernel

theorem length_branch_ne :
    (twoTxs.branch sumDsha256).length ≠ (oneTx.branch sumDsha256).length := by
  decide +kernel

theorem tornRoot_ne :
    (twoTxs.branch sumDsha256).foldl (fun root sib => sumDsha256.hash (root ++ sib))
        (serializeUint256 9#256) ≠
      serializeUint256 (sumDsha256.computeMerkleRoot (9#256 :: oneTx.txids)) := by
  decide +kernel

/-- The job pairs the template of one transaction with the branch of two, and its root is not
the root of its own transactions. -/
theorem tornJob_reachable :
    ∃ job ∈ (run sumDsha256 tornRun).issued,
      job.tmpl = oneTx ∧ job.stored = twoTxs.branch sumDsha256 ∧ ¬job.Matches sumDsha256 ∧
      job.stored.foldl (fun root sib => sumDsha256.hash (root ++ sib))
          (serializeUint256 9#256) ≠
        serializeUint256 (sumDsha256.computeMerkleRoot (9#256 :: job.tmpl.txids)) := by
  rw [tornRun_issued]
  refine ⟨_, List.mem_singleton_self _, rfl, rfl, fun hmatches => ?_, tornRoot_ne⟩
  exact length_branch_ne (congrArg List.length hmatches.stored)

/-- The first `notify` is under way while the second `refresh` is, up to its assignments. -/
def overlappedRun : List Event :=
  .refresh oneTx :: advances 0 5 (.refresh twoTxs :: advances 1 2 (.notify :: .advance 2 ::
    advances 1 3 (advances 2 2 (advances 1 2 (.notify :: advances 3 3 [])))))

theorem overlappedRun_apart :
    RunApart sumDsha256 {} overlappedRun ∧
      (run sumDsha256 overlappedRun).issued.map Issued.tmpl = [oneTx, twoTxs] := by
  decide +kernel

theorem overlappedRun_issues :
    (run sumDsha256 overlappedRun).issued.map Issued.tmpl = [oneTx, twoTxs] ∧
      ∀ job ∈ (run sumDsha256 overlappedRun).issued, job.Matches sumDsha256 := by
  refine ⟨overlappedRun_apart.2, fun job hjob => ?_⟩
  exact (issued_matches_of_runApart sumDsha256 overlappedRun overlappedRun_apart.1 job hjob).1

end XCoin.Pool
