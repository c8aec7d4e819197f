import XCoin.Pool.Pplns

/-!
# The shares of the window

`PplnsWindow` keeps the shares of the last blocks' worth of work.  Every `add` puts a share
at the end and then drops shares from the front, one at a time, as long as what is left
reaches the limit, the window factor times the network difficulty.  The total is not summed
up again: it is carried along, increased by the new share and decreased by the dropped ones.

| call                    | what is stored afterwards                                    |
| ----------------------- | ------------------------------------------------------------ |
| same difficulty always  | the shortest end of the history that reaches the limit       |
| the limit not reached   | the whole history                                            |
| any difficulties        | an end of the history; if the call dropped a share, the rest |
|                         | reaches its limit and would not with one share less          |

A network difficulty below `1e-12` counts as `1e-12`, so that below it the window is longer
than the product says.  The last share is never dropped, so that with a factor of 0 one share
stays where none would do (`tiny_difficulty_keeps_more`).
-/

namespace XCoin.Pool

/-! ## The code -/

/-- The work of shares. -/
def workOf (shares : List (Bytes × ℚ)) : ℚ := (shares.map Prod.snd).sum

/-- `PplnsWindow` with the total it carries along. -/
structure StoredWindow where
  factor : ℚ
  shares : List (Bytes × ℚ)
  total : ℚ
deriving DecidableEq, Repr

/-- The arguments of a call of `add`; a network difficulty of `none` is infinite. -/
structure AddCall where
  spk : Bytes
  diff : ℚ
  netDiff : Option ℚ
deriving DecidableEq, Repr

namespace AddCall

/-- The share a call records. -/
def share (call : AddCall) : Bytes × ℚ := (call.spk, call.diff)

end AddCall

/-- The limit of a network difficulty, `none` if it is infinite. -/
def windowLimit (factor : ℚ) (netDiff : Option ℚ) : Option ℚ :=
  netDiff.map fun net => factor * max net (1 / 10 ^ 12)

namespace StoredWindow

/-- The loop of `add` with the total it decreases; the last share is never dropped. -/
def dropLoop (limit : ℚ) : ℚ → List (Bytes × ℚ) → ℚ × List (Bytes × ℚ)
  | total, first :: second :: rest =>
    if limit ≤ total - first.2 then dropLoop limit (total - first.2) (second :: rest)
    else (total, first :: second :: rest)
  | total, shares => (total, shares)

/-- `add`: appends a share and drops the oldest ones. -/
def add (window : StoredWindow) (call : AddCall) : StoredWindow :=
  let shares := window.shares ++ [call.share]
  let total := window.total + call.diff
  match windowLimit window.factor call.netDiff with
  | none => { window with shares, total }
  | some limit =>
    { window with
      shares := (dropLoop limit total shares).2
      total := (dropLoop limit total shares).1 }

/-- A window after calls of `add`, the first one on an empty window. -/
def run (factor : ℚ) (calls : List AddCall) : StoredWindow :=
  calls.foldl add ⟨factor, [], 0⟩

/-- The window without its total. -/
def window (stored : StoredWindow) : PplnsWindow := ⟨stored.factor, stored.shares⟩

end StoredWindow

/-! ## The total -/

theorem workOf_append (front back : List (Bytes × ℚ)) :
    workOf (front ++ back) = workOf front + workOf back := by
  rw [workOf, List.map_append, List.sum_append, workOf, workOf]

theorem workOf_concat (shares : List (Bytes × ℚ)) (share : Bytes × ℚ) :
    workOf (shares ++ [share]) = workOf shares + share.2 := by
  rw [workOf_append, workOf, workOf, List.map_singleton, List.sum_singleton]

namespace StoredWindow

/-- With the right total the loop drops what the sums say, and its total stays right. -/
theorem dropLoop_eq (limit : ℚ) : ∀ (shares : List (Bytes × ℚ)) (total : ℚ),
    total = workOf shares →
      dropLoop limit total shares =
        (workOf (PplnsWindow.dropOldest limit shares), PplnsWindow.dropOldest limit shares) := by
  intro shares
  induction shares with
  | nil =>
    intro total htotal
    simp only [dropLoop, PplnsWindow.dropOldest, htotal]
  | cons first rest ih =>
    intro total htotal
    cases rest with
    | nil => simp only [dropLoop, PplnsWindow.dropOldest, htotal]
    | cons second rest =>
      have hrest : total - first.2 = workOf (second :: rest) := by
        rw [htotal, workOf, workOf, List.map_cons, List.sum_cons]
        ring
      rw [dropLoop, PplnsWindow.dropOldest, hrest, workOf]
      split_ifs with hreaches
      · exact ih _ rfl
      · rw [htotal]

/-- **One call.** The total stays the sum of the shares, and the shares are those of the
window without a total. -/
theorem add_spec {stored : StoredWindow} (htotal : stored.total = workOf stored.shares)
    (call : AddCall) :
    (stored.add call).total = workOf (stored.add call).shares ∧
      (stored.add call).window = stored.window.add call.spk call.diff call.netDiff := by
  have hsum : stored.total + call.diff = workOf (stored.shares ++ [call.share]) := by
    rw [workOf_concat, htotal]
    rfl
  rcases call with ⟨spk, diff, netDiff⟩
  cases netDiff with
  | none => exact ⟨hsum, rfl⟩
  | some net =>
    have hloop := dropLoop_eq (stored.factor * max net (1 / 10 ^ 12)) _ _ hsum
    constructor
    · change (dropLoop _ _ _).1 = workOf (dropLoop _ _ _).2
      rw [hloop]
    · change PplnsWindow.mk _ (dropLoop _ _ _).2 = _
      rw [hloop]
      rfl

theorem run_concat (factor : ℚ) (calls : List AddCall) (call : AddCall) :
    run factor (calls ++ [call]) = (run factor calls).add call := by
  rw [run, List.foldl_append, List.foldl_cons, List.foldl_nil, run]

theorem factor_add (stored : StoredWindow) (call : AddCall) :
    (stored.add call).factor = stored.factor := by
  rw [add]
  split <;> rfl

theorem run_factor (factor : ℚ) (calls : List AddCall) : (run factor calls).factor = factor := by
  induction calls using List.reverseRecOn with
  | nil => rfl
  | append_singleton calls call ih => rw [run_concat, factor_add, ih]

theorem run_total (factor : ℚ) (calls : List AddCall) :
    (run factor calls).total = workOf (run factor calls).shares := by
  induction calls using List.reverseRecOn with
  | nil => rfl
  | append_singleton calls call ih =>
    rw [run_concat]
    exact (add_spec ih call).1

theorem shares_add {stored : StoredWindow} (htotal : stored.total = workOf stored.shares)
    (call : AddCall) : (stored.add call).shares =
      match windowLimit stored.factor call.netDiff with
      | none => stored.shares ++ [call.share]
      | some limit => PplnsWindow.dropOldest limit (stored.shares ++ [call.share]) := by
  have hshares := congrArg PplnsWindow.shares (add_spec htotal call).2
  rcases call with ⟨spk, diff, netDiff⟩
  cases netDiff with
  | none => exact hshares
  | some net => exact hshares

end StoredWindow

/-! ## Ends of the history -/

section Ends

variable {limit : ℚ} {history shares : List (Bytes × ℚ)}

theorem dropOldest_suffix (limit : ℚ) (shares : List (Bytes × ℚ)) :
    PplnsWindow.dropOldest limit shares <:+ shares := by
  induction shares with
  | nil => exact List.suffix_refl _
  | cons first rest ih =>
    cases rest with
    | nil => exact List.suffix_refl _
    | cons second rest =>
      rw [PplnsWindow.dropOldest]
      split_ifs
      · exact ih.trans (List.suffix_cons _ _)
      · exact List.suffix_refl _

/-- It reaches a positive limit if anything was dropped, and would not with one share less. -/
theorem dropOldest_spec (hlimit : 0 < limit) (shares : List (Bytes × ℚ)) :
    (PplnsWindow.dropOldest limit shares = shares ∨
        limit ≤ workOf (PplnsWindow.dropOldest limit shares)) ∧
      workOf (PplnsWindow.dropOldest limit shares).tail < limit := by
  induction shares with
  | nil => exact ⟨.inl rfl, hlimit⟩
  | cons first rest ih =>
    cases rest with
    | nil => exact ⟨.inl rfl, hlimit⟩
    | cons second rest =>
      rw [PplnsWindow.dropOldest]
      split_ifs with hreaches
      · obtain ⟨hreached, htail⟩ := ih
        refine ⟨.inr ?_, htail⟩
        rcases hreached with hsame | hreached
        · rw [hsame]
          exact hreaches
        · exact hreached
      · exact ⟨.inl rfl, lt_of_not_ge hreaches⟩

theorem workOf_nonneg (hpos : ∀ share ∈ shares, 0 < share.2) : 0 ≤ workOf shares := by
  apply List.sum_nonneg
  intro work hwork
  obtain ⟨share, hshare, rfl⟩ := List.mem_map.mp hwork
  exact (hpos share hshare).le

theorem workOf_le_of_suffix (hpos : ∀ share ∈ history, 0 < share.2) (hsuffix : shares <:+ history) :
    workOf shares ≤ workOf history := by
  obtain ⟨front, rfl⟩ := hsuffix
  have hfront := workOf_nonneg fun share h => hpos share (List.mem_append_left _ h)
  rw [workOf_append]
  linarith

/-- The shortest end of the history that reaches the limit, or the whole history if no end
of it does.  No end reaches an infinite limit. -/
def ShortestEnd (limit : Option ℚ) (history shares : List (Bytes × ℚ)) : Prop :=
  (∃ work, limit = some work ∧ shares <:+ history ∧ work ≤ workOf shares ∧
      ∀ other, other <:+ history → work ≤ workOf other → shares.length ≤ other.length) ∨
    ((∀ work, limit = some work → ∀ other, other <:+ history → workOf other < work) ∧
      shares = history)

/-- What the stored shares keep when the limit is the same in all calls. -/
structure KeepsEnd (limit : ℚ) (history shares : List (Bytes × ℚ)) : Prop where
  suffix : shares <:+ history
  whole_or_reached : shares = history ∨ limit ≤ workOf shares
  tail_below : workOf shares.tail < limit

theorem KeepsEnd.add (hends : KeepsEnd limit history shares) (hlimit : 0 < limit)
    {share : Bytes × ℚ} (hshare : 0 < share.2) :
    KeepsEnd limit (history ++ [share]) (PplnsWindow.dropOldest limit (shares ++ [share])) := by
  obtain ⟨hreached, htail⟩ := dropOldest_spec hlimit (shares ++ [share])
  have hlonger : shares ++ [share] <:+ history ++ [share] := by
    obtain ⟨front, rfl⟩ := hends.suffix
    exact ⟨front, (List.append_assoc _ _ _).symm⟩
  refine ⟨(dropOldest_suffix _ _).trans hlonger, ?_, htail⟩
  rcases hreached with hall | hreached
  · rw [hall]
    rcases hends.whole_or_reached with hwhole | hreached
    · exact .inl (by rw [hwhole])
    · right
      rw [workOf_concat]
      linarith
  · exact .inr hreached

/-- An end that is shorter than the stored shares is an end of all but the first of them. -/
theorem KeepsEnd.shortestEnd (hends : KeepsEnd limit history shares)
    (hpos : ∀ share ∈ history, 0 < share.2) : ShortestEnd (some limit) history shares := by
  by_cases hreached : limit ≤ workOf shares
  · refine .inl ⟨limit, rfl, hends.suffix, hreached, ?_⟩
    intro other hother hreaches
    by_contra hshorter
    rw [not_le] at hshorter
    have hsuffix : other <:+ shares.tail := by
      have hwithin : other <:+ shares :=
        List.suffix_of_suffix_length_le hother hends.suffix hshorter.le
      cases shares with
      | nil => cases hshorter
      | cons first rest =>
        rcases List.suffix_cons_iff.mp hwithin with hsame | hrest
        · rw [hsame] at hshorter
          exact absurd hshorter (lt_irrefl _)
        · exact hrest
    have hrestPos : ∀ share ∈ shares.tail, 0 < share.2 := fun share h =>
      hpos share (hends.suffix.subset (List.mem_of_mem_tail h))
    exact absurd (hreaches.trans (workOf_le_of_suffix hrestPos hsuffix))
      (not_le.mpr hends.tail_below)
  · have hwhole := hends.whole_or_reached.resolve_right hreached
    refine .inr ⟨?_, hwhole⟩
    rintro work hwork other hother
    rw [← Option.some.inj hwork]
    exact (workOf_le_of_suffix hpos hother).trans_lt (hwhole ▸ lt_of_not_ge hreached)

end Ends

/-! ## The weights -/

section Weights

/-- The work of the shares of one script. -/
def workFor (spk : Bytes) (shares : List (Bytes × ℚ)) : ℚ :=
  workOf (shares.filter fun share => decide (share.1 = spk))

theorem lookup_cons_eq (key : Bytes) (entry : Bytes × ℚ) (rest : List (Bytes × ℚ)) :
    (entry :: rest).lookup key = if key = entry.1 then some entry.2 else rest.lookup key := by
  rw [List.lookup]
  by_cases hkey : key = entry.1
  · rw [beq_iff_eq.mpr hkey, if_pos hkey]
  · rw [beq_eq_false_iff_ne.mpr hkey, if_neg hkey]

theorem lookup_addWeight (spk : Bytes) (diff : ℚ) (key : Bytes) : ∀ sums : List (Bytes × ℚ),
    (PplnsWindow.addWeight spk diff sums).lookup key =
      if key = spk then some ((sums.lookup spk).getD 0 + diff) else sums.lookup key := by
  intro sums
  induction sums with
  | nil =>
    rw [PplnsWindow.addWeight, lookup_cons_eq, List.lookup_nil, List.lookup_nil,
      Option.getD_none, zero_add]
  | cons entry rest ih =>
    rw [PplnsWindow.addWeight]
    by_cases hentry : entry.1 = spk
    · rw [if_pos hentry, lookup_cons_eq, lookup_cons_eq, lookup_cons_eq, hentry, if_pos rfl,
        Option.getD_some]
      split_ifs <;> rfl
    · have hother : ¬ spk = entry.1 := fun h => hentry h.symm
      rw [if_neg hentry, lookup_cons_eq, lookup_cons_eq, lookup_cons_eq, ih, if_neg hother]
      by_cases hkey : key = spk
      · rw [if_pos hkey, if_pos hkey, hkey, if_neg hother]
      · rw [if_neg hkey, if_neg hkey]

theorem keys_addWeight (spk : Bytes) (diff : ℚ) : ∀ sums : List (Bytes × ℚ),
    (PplnsWindow.addWeight spk diff sums).map Prod.fst =
      if spk ∈ sums.map Prod.fst then sums.map Prod.fst else sums.map Prod.fst ++ [spk] := by
  intro sums
  induction sums with
  | nil => rfl
  | cons entry rest ih =>
    rw [PplnsWindow.addWeight]
    by_cases hentry : entry.1 = spk
    · simp [hentry]
    · have hother : ¬ spk = entry.1 := fun h => hentry h.symm
      rw [if_neg hentry, List.map_cons, ih]
      by_cases hrest : spk ∈ rest.map Prod.fst
      · have hall : spk ∈ (entry :: rest).map Prod.fst := List.mem_cons_of_mem _ hrest
        rw [if_pos hrest, if_pos hall, List.map_cons]
      · have hnone : spk ∉ (entry :: rest).map Prod.fst := by
          rw [List.map_cons, List.mem_cons, not_or]
          exact ⟨hother, hrest⟩
        rw [if_neg hrest, if_neg hnone, List.map_cons, List.cons_append]

/-- The sums over the shares: one entry for each script, with the work of its shares. -/
structure PerScript (shares sums : List (Bytes × ℚ)) : Prop where
  nodup : (sums.map Prod.fst).Nodup
  lookup : ∀ spk, sums.lookup spk =
    if spk ∈ shares.map Prod.fst then some (workFor spk shares) else none

theorem PerScript.add {shares sums : List (Bytes × ℚ)} (hsums : PerScript shares sums)
    (share : Bytes × ℚ) :
    PerScript (shares ++ [share]) (PplnsWindow.addWeight share.1 share.2 sums) := by
  constructor
  · rw [keys_addWeight]
    split_ifs with hold
    · exact hsums.nodup
    · exact List.nodup_append.mpr ⟨hsums.nodup, List.nodup_singleton _, by
        rintro key hkey other hother rfl
        exact hold (List.mem_singleton.mp hother ▸ hkey)⟩
  · intro spk
    have hwork : workFor spk (shares ++ [share]) =
        workFor spk shares + if share.1 = spk then share.2 else 0 := by
      rw [workFor, List.filter_append, workOf_append, workFor]
      by_cases hsame : share.1 = spk <;> simp [hsame, workOf]
    have hmem : spk ∈ (shares ++ [share]).map Prod.fst ↔
        spk ∈ shares.map Prod.fst ∨ spk = share.1 := by
      rw [List.map_append, List.mem_append, List.map_singleton, List.mem_singleton]
    rw [lookup_addWeight, hwork]
    by_cases hspk : spk = share.1
    · rw [if_pos hspk, if_pos (hmem.mpr (.inr hspk)), if_pos hspk.symm, hsums.lookup, hspk]
      split_ifs with hold
      · rfl
      · -- a script without shares so far has no work
        have hnone : workFor share.1 shares = 0 := by
          rw [workFor, List.filter_eq_nil_iff.mpr]
          · rfl
          · intro other hother hsame
            exact hold (List.mem_map.mpr ⟨other, hother, of_decide_eq_true hsame⟩)
        rw [hnone]
        rfl
    · have hother : ¬ share.1 = spk := fun h => hspk h.symm
      rw [if_neg hspk, hsums.lookup, if_neg hother, add_zero]
      by_cases hold : spk ∈ shares.map Prod.fst
      · rw [if_pos hold, if_pos (hmem.mpr (.inl hold))]
      · rw [if_neg hold, if_neg (fun h => hold ((hmem.mp h).resolve_right hspk))]

theorem perScript_weights (window : PplnsWindow) : PerScript window.shares window.weights := by
  rcases window with ⟨factor, shares⟩
  change PerScript shares (shares.foldl (fun sums share => _) [])
  induction shares using List.reverseRecOn with
  | nil => exact ⟨List.nodup_nil, fun spk => rfl⟩
  | append_singleton shares share ih =>
    rw [List.foldl_append, List.foldl_cons, List.foldl_nil]
    exact ih.add share

end Weights

/-! ## Whole runs -/

section Runs

variable {factor : ℚ} {netDiff : Option ℚ}

theorem windowLimit_pos (hfactor : 0 < factor) {limit : ℚ}
    (hlimit : windowLimit factor netDiff = some limit) : 0 < limit := by
  rw [windowLimit, Option.map_eq_some_iff] at hlimit
  obtain ⟨net, -, rfl⟩ := hlimit
  exact mul_pos hfactor (lt_max_of_lt_right (by norm_num))

theorem shares_add_suffix (calls : List AddCall) (call : AddCall) :
    ((StoredWindow.run factor calls).add call).shares <:+
      (StoredWindow.run factor calls).shares ++ [call.share] := by
  rw [StoredWindow.shares_add (StoredWindow.run_total factor calls), StoredWindow.run_factor]
  cases windowLimit factor call.netDiff with
  | none => exact List.suffix_refl _
  | some limit => exact dropOldest_suffix limit _

/-- **Any difficulties.** The stored shares are an end of the history. -/
theorem run_suffix (calls : List AddCall) :
    (StoredWindow.run factor calls).shares <:+ calls.map AddCall.share := by
  induction calls using List.reverseRecOn with
  | nil => exact List.suffix_refl _
  | append_singleton calls call ih =>
    rw [StoredWindow.run_concat, List.map_append, List.map_singleton]
    refine (shares_add_suffix calls call).trans ?_
    obtain ⟨front, hfront⟩ := ih
    exact ⟨front, by rw [← hfront, List.append_assoc]⟩

/-- **One difficulty.** With a finite limit the stored shares stay an end that reaches it and
has no share too many. -/
theorem run_keepsEnd (hfactor : 0 < factor) {limit : ℚ}
    (hlimit : windowLimit factor netDiff = some limit) (calls : List AddCall) :
    (∀ call ∈ calls, 0 < call.diff ∧ call.netDiff = netDiff) →
      KeepsEnd limit (calls.map AddCall.share) (StoredWindow.run factor calls).shares := by
  have hpos := windowLimit_pos hfactor hlimit
  induction calls using List.reverseRecOn with
  | nil => exact fun _ => ⟨List.suffix_refl _, .inl rfl, hpos⟩
  | append_singleton calls call ih =>
    intro hcalls
    obtain ⟨hdiff, hnet⟩ := hcalls call (List.mem_append_right _ List.mem_cons_self)
    have hkeeps := ih fun other h => hcalls other (List.mem_append_left _ h)
    rw [StoredWindow.run_concat, List.map_append, List.map_singleton,
      StoredWindow.shares_add (StoredWindow.run_total factor calls), StoredWindow.run_factor,
      hnet, hlimit]
    exact hkeeps.add hpos hdiff

theorem run_whole (hlimit : windowLimit factor netDiff = none) (calls : List AddCall) :
    (∀ call ∈ calls, call.netDiff = netDiff) →
      (StoredWindow.run factor calls).shares = calls.map AddCall.share := by
  induction calls using List.reverseRecOn with
  | nil => exact fun _ => rfl
  | append_singleton calls call ih =>
    intro hcalls
    have hnet := hcalls call (List.mem_append_right _ List.mem_cons_self)
    rw [StoredWindow.run_concat, List.map_append, List.map_singleton,
      StoredWindow.shares_add (StoredWindow.run_total factor calls), StoredWindow.run_factor,
      hnet, hlimit, ih fun other h => hcalls other (List.mem_append_left _ h)]

/-- What one more call leaves if it drops a share: the rest reaches the limit of the call, and
without its first share it would not. -/
def DropsToLimit (factor : ℚ) (window : StoredWindow) (call : AddCall) : Prop :=
  (window.add call).shares ≠ window.shares ++ [call.share] →
    ∃ limit, windowLimit factor call.netDiff = some limit ∧ limit ≤ (window.add call).total ∧
      ∀ first rest, (window.add call).shares = first :: rest →
        (window.add call).total - first.2 < limit

theorem dropsToLimit (hfactor : 0 < factor) (calls : List AddCall) (call : AddCall) :
    DropsToLimit factor (StoredWindow.run factor calls) call := by
  intro hdropped
  have htotal := (StoredWindow.add_spec (StoredWindow.run_total factor calls) call).1
  have hshares := StoredWindow.shares_add (StoredWindow.run_total factor calls) call
  rw [StoredWindow.run_factor] at hshares
  cases hlimit : windowLimit factor call.netDiff with
  | none =>
    rw [hlimit] at hshares
    exact absurd hshares hdropped
  | some limit =>
    rw [hlimit] at hshares
    obtain ⟨hreached, htail⟩ := dropOldest_spec (windowLimit_pos hfactor hlimit)
      ((StoredWindow.run factor calls).shares ++ [call.share])
    simp only at hshares
    rw [← hshares] at hreached htail
    refine ⟨limit, rfl, htotal ▸ hreached.resolve_left hdropped, ?_⟩
    intro first rest hsplit
    rw [hsplit] at htail
    rw [htotal, hsplit, workOf, List.map_cons, List.sum_cons, add_sub_cancel_left]
    exact htail

/-- **The window.** After calls with positive difficulties the total is the sum of the stored
shares, and the weights are the sums over them for each script.  The stored shares are an
end of the history.  With a positive factor it is the shortest one that reaches the limit if the
network difficulty was always the same, and a call that drops shares stops right at its limit. -/
theorem run_shortestEnd (factor : ℚ) (calls : List AddCall)
    (hdiffs : ∀ call ∈ calls, 0 < call.diff) :
    (StoredWindow.run factor calls).total = workOf (StoredWindow.run factor calls).shares ∧
    (0 < factor → ∀ netDiff, (∀ call ∈ calls, call.netDiff = netDiff) →
      ShortestEnd (windowLimit factor netDiff) (calls.map AddCall.share)
        (StoredWindow.run factor calls).shares) ∧
    PerScript (StoredWindow.run factor calls).shares
      (StoredWindow.run factor calls).window.weights ∧
    (StoredWindow.run factor calls).shares <:+ calls.map AddCall.share ∧
    (0 < factor → ∀ call, DropsToLimit factor (StoredWindow.run factor calls) call) := by
  refine ⟨StoredWindow.run_total factor calls, ?_,
    perScript_weights (StoredWindow.run factor calls).window, run_suffix calls,
    fun hfactor => dropsToLimit hfactor calls⟩
  intro hfactor netDiff hsame
  cases hlimit : windowLimit factor netDiff with
  | none =>
    refine .inr ⟨?_, run_whole hlimit calls hsame⟩
    intro work hwork
    cases hwork
  | some limit =>
    have hkeeps := run_keepsEnd hfactor hlimit calls fun call h => ⟨hdiffs call h, hsame call h⟩
    apply hkeeps.shortestEnd
    intro share hshare
    obtain ⟨call, hcall, rfl⟩ := List.mem_map.mp hshare
    exact hdiffs call hcall

end Runs

/-- Three shares of work 2 with a window of three units of work: the first one is dropped. -/
def threeShares : List AddCall := [⟨[1], 2, some 1⟩, ⟨[2], 2, some 1⟩, ⟨[1], 2, some 1⟩]

theorem threeShares_end :
    (StoredWindow.run 3 threeShares).shares = [([2], 2), ([1], 2)] ∧
      (StoredWindow.run 3 threeShares).total = workOf (StoredWindow.run 3 threeShares).shares ∧
      ShortestEnd (windowLimit 3 (some 1)) (threeShares.map AddCall.share)
        (StoredWindow.run 3 threeShares).shares := by
  obtain ⟨htotal, hshortest, -⟩ := run_shortestEnd 3 threeShares (by decide)
  exact ⟨by decide +kernel, htotal, hshortest (by norm_num) (some 1) (by decide)⟩

/-- Two shares at a network difficulty of `1e-13`: the last one alone reaches the factor times
the difficulty. -/
def tinyShares : List AddCall :=
  [⟨[1], 1 / 10 ^ 13, some (1 / 10 ^ 13)⟩, ⟨[2], 1 / 10 ^ 13, some (1 / 10 ^ 13)⟩]

/-- Both are stored; and with a factor of 0 the last of three shares is stored, although no share
at all reaches the limit. -/
theorem tiny_difficulty_keeps_more :
    (StoredWindow.run 1 tinyShares).shares = [([1], 1 / 10 ^ 13), ([2], 1 / 10 ^ 13)] ∧
      [(([2] : Bytes), (1 : ℚ) / 10 ^ 13)] <:+ tinyShares.map AddCall.share ∧
      1 * (1 / 10 ^ 13) ≤ workOf [([2], 1 / 10 ^ 13)] ∧
      (StoredWindow.run 0 threeShares).shares = [([1], 2)] ∧ (0 : ℚ) * 1 ≤ workOf [] ∧
      ¬DropsToLimit 0 (StoredWindow.run 0 (threeShares.take 2)) ⟨[1], 2, some 1⟩ := by
  refine ⟨by decide +kernel, ⟨[([1], 1 / 10 ^ 13)], rfl⟩, ?_, by decide +kernel, ?_, ?_⟩
  · norm_num [workOf]
  · norm_num [workOf]
  · intro hdrops
    obtain ⟨limit, hlimit, -, hbelow⟩ := hdrops (by decide +kernel)
    have hrest := hbelow ([1], 2) [] (by decide +kernel)
    have htotal : ((StoredWindow.run 0 (threeShares.take 2)).add ⟨[1], 2, some 1⟩).total = 2 := by
      decide +kernel
    have hzero : limit = 0 := by simpa [windowLimit] using hlimit.symm
    rw [htotal, hzero, sub_self] at hrest
    exact lt_irrefl _ hrest

end XCoin.Pool
