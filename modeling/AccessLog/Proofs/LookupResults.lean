import AccessLog.Proofs.DialogueTurns

/-! # What lookups come to

A lookup of an address is one call or several, and it comes to what the last of them has told: the
info that was found, or that nothing is known, after an error as well as after a breakdown. -/

namespace AccessLog.Service
open AccessLog.Enrich AccessLog.Store

/-! ## One lookup -/

theorem calls_traceFrom_pos (p : BackoffPolicy) (address : String) (outcomes : Nat → Outcome)
    (index left : Nat) : 0 < (p.traceFrom address outcomes index left).calls := by
  cases left <;> unfold BackoffPolicy.traceFrom <;> split <;> exact Nat.succ_pos _

/-- What a call has told about an address. -/
def told (address : String) : Outcome → AddressInfo
  | .found info => info
  | .failed _ | .crashed _ => .unknown address

theorem told_of_next (p : BackoffPolicy) (address : String) (index : Nat) (outcome : Outcome) :
    told address outcome = match p.next address index outcome with
      | .finished info => info
      | .retryAfter _ | .crashed _ => .unknown address := by
  cases outcome with
  | found | crashed => rfl
  | failed error =>
    by_cases hagain : (error.isRetryable && decide (index + 1 < p.attempts)) = true
    · simp only [BackoffPolicy.next, if_pos hagain, told]
    · simp only [BackoffPolicy.next, if_neg hagain, told]

/-- A lookup settles an address with what its last call has told. -/
theorem settled_traceFrom (p : BackoffPolicy) (address : String) (outcomes : Nat → Outcome)
    (left index : Nat) :
    let trace := p.traceFrom address outcomes index left
    trace.result.settled address = told address (outcomes (index + (trace.calls - 1))) := by
  induction left generalizing index with
  | zero =>
    have htold := told_of_next p address index (outcomes index)
    simp only [BackoffPolicy.traceFrom]
    split <;> rename_i hnext <;> rw [hnext] at htold <;> exact htold.symm
  | succ left ih =>
    have htold := told_of_next p address index (outcomes index)
    simp only [BackoffPolicy.traceFrom]
    split
    · rename_i message hnext
      rw [hnext] at htold
      exact htold.symm
    · rename_i info hnext
      rw [hnext] at htold
      exact htold.symm
    · -- the attempts that follow settle it
      have hcalls := calls_traceFrom_pos p address outcomes (index + 1) left
      refine (ih (index + 1)).trans ?_
      congr 2
      dsimp only
      omega

theorem settled_trace_eq (p : BackoffPolicy) (address : String) (outcomes : Nat → Outcome) :
    (p.trace address outcomes).result.settled address =
      told address (outcomes ((p.trace address outcomes).calls - 1)) := by
  unfold BackoffPolicy.trace
  simpa only [Nat.zero_add] using settled_traceFrom p address outcomes (p.attempts - 1) 0

/-! ## The lookups of a run -/

/-- The result of a lookup of this address, where one ends. -/
def Deed.result? (address : String) : Deed → Option BackoffPolicy.Resolution
  | .settled other result => if other = address then some result else none
  | .offered _ | .taken _ | .checked _ _ | .cached _ _ | .completed _ => none

/-- What the lookups of an address have come to. -/
def resultsOf (address : String) (deeds : List Deed) : List BackoffPolicy.Resolution :=
  deeds.filterMap (Deed.result? address)

theorem resultsOf_append (address : String) (deeds more : List Deed) :
    resultsOf address (deeds ++ more) = resultsOf address deeds ++ resultsOf address more :=
  List.filterMap_append

theorem mem_resultsOf {address : String} {result : BackoffPolicy.Resolution} {deeds : List Deed} :
    result ∈ resultsOf address deeds ↔ .settled address result ∈ deeds := by
  constructor
  · intro hmem
    obtain ⟨d, hd, hresult⟩ := List.mem_filterMap.1 hmem
    cases d with
    | settled other result' =>
      obtain ⟨rfl, rfl⟩ : other = address ∧ result' = result := by
        simpa [Deed.result?] using hresult
      exact hd
    | offered | taken | checked | cached | completed => cases hresult
  · intro hmem
    exact List.mem_filterMap.2 ⟨_, hmem, if_pos rfl⟩

theorem resultsOf_ofPhases? (address : String) (c : Cache) (phase phase' : Phase) :
    resultsOf address (Deed.ofPhases? c phase phase').toList = [] := by
  cases phase <;> cases phase' <;> rfl

theorem resultsOf_ofClaims? (address : String) (claimed claimed' : Option String) :
    resultsOf address (Deed.ofClaims? claimed claimed').toList = [] := by
  cases claimed <;> cases claimed' <;> rfl

namespace Dialogue
variable {σ : Type} [SharedStore σ] {p : BackoffPolicy} {s s' : Dialogue σ} {t : Turn}
  {d : Option Deed}

theorem Change.settled {address : String} {result : BackoffPolicy.Resolution}
    (h : s.Change p t d s') (hsettled : result ∈ resultsOf address d.toList) :
    ∃ outcomes, t = .lookup outcomes ∧ result = (p.trace address outcomes).result := by
  cases h with
  | call | stop | forget | none => cases hsettled
  | task =>
    rw [resultsOf_ofClaims?] at hsettled
    cases hsettled
  | worker =>
    rw [resultsOf_ofPhases?] at hsettled
    cases hsettled
  | lookup resolving =>
    obtain ⟨rfl, rfl⟩ := by simpa using mem_resultsOf.1 hsettled
    exact ⟨_, rfl, rfl⟩

/-- A lookup comes to what the outcomes of its calls say. -/
theorem settled_play (p : BackoffPolicy) (s : Dialogue σ) (turns : List Turn) {address : String}
    {result : BackoffPolicy.Resolution} (hmem : result ∈ resultsOf address (s.deeds p turns)) :
    ∃ outcomes, .lookup outcomes ∈ turns ∧ result = (p.trace address outcomes).result := by
  refine play_induction (P := fun past _ => ∀ result ∈ resultsOf address past,
    ∃ outcomes, .lookup outcomes ∈ turns ∧ result = (p.trace address outcomes).result)
    ?_ (fun _ hmem => nomatch hmem) result hmem
  intro past before t d after ht hchange hpast result hmem
  rw [resultsOf_append] at hmem
  rcases List.mem_append.1 hmem with hmem | hmem
  · exact hpast result hmem
  · obtain ⟨outcomes, rfl, hresult⟩ := hchange.settled hmem
    exact ⟨outcomes, ht, hresult⟩

/-- Calls are made at the turns at which a lookup ends. -/
theorem asked_iff_settled (p : BackoffPolicy) (s : Dialogue σ) (t : Turn) (address : String) :
    (∃ outcome, (address, outcome) ∈ s.asked p t) ↔
      ∃ result, .settled address result ∈ (s.deed? p t).toList := by
  cases t with
  | lookup outcomes =>
    cases hresolving : s.resolving? with
    | none => simp [asked, deed?, hresolving]
    | some held =>
      have hcalls : 0 < (p.trace held outcomes).calls := calls_traceFrom_pos p held outcomes 0 _
      simp only [asked, deed?, hresolving, List.mem_map, List.mem_range, Prod.mk.injEq,
        Option.map_some, Option.toList_some, List.mem_singleton, Deed.settled.injEq]
      constructor
      · rintro ⟨_, _, _, rfl, -⟩
        exact ⟨_, rfl, rfl⟩
      · rintro ⟨_, rfl, -⟩
        exact ⟨_, 0, hcalls, rfl, rfl⟩
  | event e h =>
    have hnone (result : BackoffPolicy.Resolution) :
        s.deed? p (.event e h) ≠ some (.settled address result) := by
      cases e with
      | worker =>
        simp only [deed?]
        cases s.worker.phase <;> cases (s.next .worker).worker.phase <;> simp [Deed.ofPhases?]
      | task number =>
        simp only [deed?]
        cases s.claimedBy? number <;> cases (s.next (.task number)).claimedBy? number <;>
          simp [Deed.ofClaims?]
      | call | settle | stop | forget => simp [deed?]
    simp [asked, hnone]

/-- An address is asked about in the course of its lookups. -/
theorem called_iff_settled (p : BackoffPolicy) (s : Dialogue σ) (turns : List Turn)
    (address : String) : (∃ outcome, (address, outcome) ∈ s.calls p turns) ↔
      ∃ result, .settled address result ∈ s.deeds p turns := by
  induction turns generalizing s with
  | nil => simp [calls, deeds]
  | cons t rest ih =>
    simp only [calls, deeds, List.mem_append, exists_or, asked_iff_settled, ih]

end Dialogue

end AccessLog.Service
