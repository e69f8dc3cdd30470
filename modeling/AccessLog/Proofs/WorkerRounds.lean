import AccessLog.Proofs.DialogueTurns

/-! # The rounds of the worker

The worker goes in rounds. A round takes an address and looks into the cache; where that has no
entry, the address is looked up, and what the lookup comes to is cached; in any case the address is
completed. So what the worker has done is a row of whole rounds and the beginning of one more, which
tells in which phase it is. The rounds take the addresses in the order of the queue.

A round goes on as long as the worker gets its turns and lookups end, whatever happens besides. -/

namespace AccessLog.Enrich

/-- How many steps are left of the round that the worker is on. -/
def Phase.stepsLeft : Phase → Nat
  | .taken _ => 4
  | .resolving _ => 3
  | .resolved _ _ => 2
  | .cached _ => 1
  | .idle | .waiting _ | .stopped => 0

end AccessLog.Enrich

namespace AccessLog.Service
open AccessLog.Enrich AccessLog.Store

/-- A round, with the result of the lookup where the address was looked up. -/
inductive Round where
  | known (address : String)
  | lookedUp (address : String) (result : BackoffPolicy.Resolution)
  deriving DecidableEq

namespace Round

def address : Round → String
  | known address | lookedUp address _ => address

def deeds : Round → List Deed
  | known address => [.taken address, .checked address true, .completed address]
  | lookedUp address result =>
    [.taken address, .checked address false, .settled address result,
      .cached address (result.settled address), .completed address]

end Round

/-- The deeds of the round that the worker is on when it is in this phase. -/
inductive Underway : Phase → List Deed → Prop
  | idle : Underway .idle []
  | waiting {ticket} : Underway (.waiting ticket) []
  | stopped : Underway .stopped []
  | taken {address} : Underway (.taken address) [.taken address]
  | resolving {address} :
      Underway (.resolving address) [.taken address, .checked address false]
  | resolved {address result} :
      Underway (.resolved address (BackoffPolicy.Resolution.settled address result))
        [.taken address, .checked address false, .settled address result]
  | known {address} : Underway (.cached address) [.taken address, .checked address true]
  | cached {address result} :
      Underway (.cached address)
        [.taken address, .checked address false, .settled address result,
          .cached address (result.settled address)]

/-- What the worker does among these deeds. -/
def workOf (deeds : List Deed) : List Deed := deeds.filter Deed.isWork

theorem workOf_append (deeds more : List Deed) :
    workOf (deeds ++ more) = workOf deeds ++ workOf more := List.filter_append _ _

/-- The worker has done these rounds, and then what its phase tells. -/
def Worked (deeds : List Deed) (rounds : List Round) (phase : Phase) : Prop :=
  ∃ opened, workOf deeds = rounds.flatMap Round.deeds ++ opened ∧ Underway phase opened

/-- The address that is taken at a deed. -/
def Deed.taken? : Deed → Option String
  | .taken address => some address
  | .offered _ | .checked _ _ | .settled _ _ | .cached _ _ | .completed _ => none

/-- The addresses that are taken at these deeds, in order. -/
def takesOf (deeds : List Deed) : List String := deeds.filterMap Deed.taken?

theorem takesOf_append (deeds more : List Deed) :
    takesOf (deeds ++ more) = takesOf deeds ++ takesOf more := List.filterMap_append

theorem takesOf_workOf (deeds : List Deed) : takesOf (workOf deeds) = takesOf deeds := by
  rw [takesOf, workOf, List.filterMap_filter]
  refine List.filterMap_congr fun d _ => ?_
  cases d <;> rfl

theorem takesOf_rounds (rounds : List Round) :
    takesOf (rounds.flatMap Round.deeds) = rounds.map Round.address := by
  induction rounds with
  | nil => rfl
  | cons round rest ih =>
    rw [List.flatMap_cons, takesOf_append, ih]
    cases round <;> rfl

namespace Underway
variable {phase : Phase} {opened : List Deed}

/-- What has been taken in the round under way is what the worker holds. -/
theorem takes {w : Worker} (h : Underway w.phase opened) : takesOf opened = w.held?.toList := by
  obtain ⟨phase, stopping⟩ := w
  cases h <;> rfl

theorem work (h : Underway phase opened) : workOf opened = opened := by
  cases h <;> rfl

end Underway

namespace Worked
variable {deeds : List Deed} {rounds : List Round} {phase : Phase}

theorem takes {w : Worker} (h : Worked deeds rounds w.phase) :
    takesOf deeds = rounds.map Round.address ++ w.held?.toList := by
  obtain ⟨opened, hdeeds, hunderway⟩ := h
  rw [← takesOf_workOf, hdeeds, takesOf_append, takesOf_rounds]
  exact congrArg _ hunderway.takes

theorem offer (h : Worked deeds rounds phase) (claimed claimed' : Option String) :
    Worked (deeds ++ (Deed.ofClaims? claimed claimed').toList) rounds phase := by
  have hwork : workOf (Deed.ofClaims? claimed claimed').toList = [] := by
    cases claimed <;> cases claimed' <;> rfl
  obtain ⟨opened, hdeeds, hunderway⟩ := h
  refine ⟨opened, ?_, hunderway⟩
  rw [workOf_append, hwork, List.append_nil, hdeeds]

/-- The round goes on. -/
theorem go {opened : List Deed} {d : Deed}
    (hdeeds : workOf deeds = rounds.flatMap Round.deeds ++ opened) (hwork : d.isWork = true)
    (hunderway : Underway phase (opened ++ [d])) :
    Worked (deeds ++ [d]) rounds phase := by
  refine ⟨opened ++ [d], ?_, hunderway⟩
  rw [workOf_append, hdeeds, workOf, List.filter_cons_of_pos hwork, List.filter_nil,
    List.append_assoc]

/-- The round is over. -/
theorem close {opened : List Deed} {address : String}
    (hdeeds : workOf deeds = rounds.flatMap Round.deeds ++ opened) {round : Round}
    (hround : opened ++ [.completed address] = round.deeds) :
    Worked (deeds ++ [.completed address]) (rounds ++ [round]) .idle := by
  refine ⟨[], ?_, .idle⟩
  rw [workOf_append, hdeeds, List.append_assoc]
  show _ ++ (opened ++ [_]) = _
  rw [hround]
  simp

end Worked

/-! ## Steps of the worker -/

@[simp] theorem Deed.ofPhases?_idle (c : Cache) (taken : TakeResult String) :
    ofPhases? c .idle (Worker.afterTake taken) = taken.value?.map .taken := by
  cases taken <;> rfl

@[simp] theorem Deed.ofPhases?_waiting (c : Cache) (ticket : Nat) (taken : TakeResult String) :
    ofPhases? c (.waiting ticket) (Worker.afterTake taken) = taken.value?.map .taken := by
  cases taken <;> rfl

namespace Worked
variable {deeds : List Deed} {rounds : List Round} {phase : Phase}

theorem take (hdeeds : workOf deeds = rounds.flatMap Round.deeds) (taken : TakeResult String) :
    Worked (deeds ++ (taken.value?.map Deed.taken).toList) rounds (Worker.afterTake taken) := by
  cases taken with
  | item address =>
    have hopened : workOf deeds = rounds.flatMap Round.deeds ++ [] :=
      hdeeds.trans (List.append_nil _).symm
    exact go hopened rfl .taken
  | waiting ticket =>
    refine ⟨[], ?_, .waiting⟩
    rw [List.append_nil]
    exact (congrArg workOf (List.append_nil deeds)).trans hdeeds

/-- A step of the worker goes on with a round, opens one or closes one. -/
theorem step {w w' : Worker} {p p' : Pipeline} (h : Worked deeds rounds w.phase)
    (hstep : w.Step p w' p') :
    ∃ rounds', Worked (deeds ++ (Deed.ofPhases? p.cache w.phase w'.phase).toList) rounds'
      w'.phase := by
  obtain ⟨opened, hdeeds, hunderway⟩ := h
  cases hstep with
  | stop | giveUp =>
    cases hunderway
    exact ⟨rounds, [], by simpa [Deed.ofPhases?] using hdeeds, .stopped⟩
  | take =>
    cases hunderway
    rw [List.append_nil] at hdeeds
    refine ⟨rounds, ?_⟩
    simpa using take hdeeds p.queue.begin.1
  | @retake _ ticket notified =>
    cases hunderway
    rw [List.append_nil] at hdeeds
    refine ⟨rounds, ?_⟩
    simpa using take hdeeds (p.queue.poll ticket).1
  | @hit _ address _ info found =>
    have hlive : p.cache.holds address = true := by
      rw [Cache.holds, ← Cache.get_fst, found, Option.isSome_some]
    cases hunderway
    refine ⟨rounds, go hdeeds rfl ?_⟩
    rw [hlive]
    exact .known
  | @miss _ address _ missing =>
    have hdead : p.cache.holds address = false := by
      rw [Cache.holds, ← Cache.get_fst, missing, Option.isSome_none]
    cases hunderway
    refine ⟨rounds, go hdeeds rfl ?_⟩
    rw [hdead]
    exact .resolving
  | record =>
    cases hunderway
    exact ⟨rounds, go hdeeds rfl .cached⟩
  | @release _ address _ =>
    cases hunderway with
    | known => exact ⟨rounds ++ [.known address], close hdeeds rfl⟩
    | @cached _ result => exact ⟨rounds ++ [.lookedUp address result], close hdeeds rfl⟩

end Worked

/-! ## Rounds of a run -/

/-- What is queued at a step of a call has been made pending before. -/
theorem Offering.items {claimed claimed' : Option String} {q q' : WorkQueue String}
    (h : Offering claimed q claimed' q') :
    ∃ pushed, q'.items = q.items ++ pushed ∧ ∀ address ∈ pushed, claimed = some address := by
  cases h with
  | none => exact ⟨[], (List.append_nil _).symm, by simp⟩
  | @claim _ _ address claimed =>
    obtain ⟨-, rfl⟩ := WorkQueue.claim?_eq_some claimed
    exact ⟨[], (List.append_nil _).symm, by simp⟩
  | @push _ address =>
    refine ⟨[address], WorkQueue.push_items _ _, ?_⟩
    intro a ha
    rw [List.mem_singleton.1 ha]

/-- The worker takes what is at the front of the queue, and the rest stays. -/
theorem takesOf_step {w w' : Worker} {p p' : Pipeline}
    (h : w.Step p w' p') :
    takesOf (Deed.ofPhases? p.cache w.phase w'.phase).toList ++ p'.queue.items = p.queue.items := by
  have htaken (taken : TakeResult String) :
      takesOf (taken.value?.map Deed.taken).toList = taken.value?.toList := by
    cases taken <;> rfl
  cases h with
  | stop | hit | miss | record | release => rfl
  | giveUp => exact WorkQueue.cancel_items _ _
  | take =>
    rw [Deed.ofPhases?_idle, htaken]
    exact WorkQueue.begin_items _
  | retake notified =>
    rw [Deed.ofPhases?_waiting, htaken]
    exact WorkQueue.poll_items _ _

namespace Dialogue
variable {σ : Type} [SharedStore σ] {p : BackoffPolicy} {s s' : Dialogue σ} {t : Turn}
  {d : Option Deed} {deeds : List Deed} {rounds : List Round}

/-- At every turn the worker is at the round that its phase tells. -/
theorem Change.worked (h : s.Change p t d s') (hworked : Worked deeds rounds s.worker.phase) :
    ∃ rounds', Worked (deeds ++ d.toList) rounds' s'.worker.phase := by
  cases h with
  | call | stop | forget | none => exact ⟨rounds, hworked.offer Option.none Option.none⟩
  | task stands moved => exact ⟨rounds, hworked.offer _ _⟩
  | worker made => exact hworked.step made
  | lookup resolving =>
    obtain ⟨opened, hdeeds, hunderway⟩ := hworked
    rw [resolving] at hunderway
    cases hunderway
    exact ⟨rounds, Worked.go hdeeds rfl .resolved⟩

/-- What the worker does in a run are rounds, the last of them perhaps not over. -/
theorem worked_play (p : BackoffPolicy) {s : Dialogue σ} {opened : List Deed}
    (h : Underway s.worker.phase opened) (turns : List Turn) :
    ∃ rounds, Worked (opened ++ s.deeds p turns) rounds (s.play p turns).worker.phase :=
  play_induction (P := fun deeds s => ∃ rounds, Worked (opened ++ deeds) rounds s.worker.phase)
    (fun past _ _ d _ _ hchange ⟨_, hworked⟩ => by
      rw [← List.append_assoc]
      exact hchange.worked hworked)
    ⟨[], opened, by simp [h.work], h⟩

/-- Whatever joins the queue joins it at its end, and an address is taken from its front. -/
theorem Change.takes (h : s.Change p t d s') :
    ∃ pushed, takesOf d.toList ++ s'.queue.items = s.queue.items ++ pushed ∧
      ∀ address ∈ pushed, address ∈ s.claimed := by
  cases h with
  | call | stop | forget | lookup | none =>
    exact ⟨[], (List.append_nil _).symm, by simp⟩
  | @task _ _ call stage stage' service stands moved =>
    obtain ⟨pushed, hitems, hpushed⟩ := moved.offering.items
    have hnone : takesOf (Deed.ofClaims? stage.claimed? stage'.claimed?).toList = [] := by
      cases stage.claimed? <;> cases stage'.claimed? <;> rfl
    refine ⟨pushed, ?_, ?_⟩
    · rw [hnone]
      exact hitems
    · intro address hmem
      exact List.mem_filterMap.2 ⟨_, List.mem_of_getElem? stands, hpushed address hmem⟩
  | worker made => exact ⟨[], (takesOf_step made).trans (List.append_nil _).symm, by simp⟩

/-- An address that has newly been made pending has been offered at this turn. -/
theorem Change.claims (h : s.Change p t d s') {address : String} (hmem : address ∈ s'.claimed) :
    address ∈ s.claimed ∨ d = some (.offered address) := by
  cases h with
  | worker | lookup | stop | forget | none => exact .inl hmem
  | @call c =>
    rw [claimed, claimsOf_middle, Stage.claimed?_ofCall] at hmem
    exact .inl (by simpa [claimed, claimsOf] using hmem)
  | @task number _ call stage stage' service stands moved =>
    obtain ⟨before, after, hbefore, hafter⟩ := exists_middle stands
    rw [claimed, hbefore, claimsOf_middle]
    rw [claimed, hafter, claimsOf_middle] at hmem
    simp only [List.mem_append, Option.mem_toList] at hmem ⊢
    rcases hmem with hmem | hmem | hmem
    · exact .inl (.inl hmem)
    · rcases moved.offering.claims hmem with hbefore | ⟨hnone, -⟩
      · exact .inl (.inr (.inl hbefore))
      · exact .inr (Deed.ofClaims?_eq_some.2 ⟨hnone, address, hmem, rfl⟩)
    · exact .inl (.inr (.inr hmem))

end Dialogue

/-! ## Progress -/

def Turn.isWorker : Turn → Bool
  | .event e _ =>
    match e with
    | .worker => true
    | .call _ | .task _ | .settle _ | .stop | .forget _ => false
  | .lookup _ => false

def Turn.isLookup : Turn → Bool
  | .event _ _ => false
  | .lookup _ => true

/-- The turns can be cut into `n` stretches or more, in each of which the worker has a turn, and the
lookup under way ends if there is one. -/
def Beats (n : Nat) (turns : List Turn) : Prop :=
  ∃ stretches : List (List Turn), stretches.flatten = turns ∧ n ≤ stretches.length ∧
    ∀ stretch ∈ stretches,
      (∃ t ∈ stretch, t.isWorker = true) ∧ ∃ t ∈ stretch, t.isLookup = true

/-- A lookup ends, where one is under way, and the worker has a turn. -/
def beat (outcomes : Nat → Outcome) : List Turn := [.lookup outcomes, .event .worker (.refl false)]

theorem beats_flatMap (lookups : List (Nat → Outcome)) :
    Beats lookups.length (lookups.flatMap beat) := by
  refine ⟨lookups.map beat, rfl, ?_, ?_⟩
  · rw [List.length_map]
  · intro stretch hstretch
    obtain ⟨outcomes, -, rfl⟩ := List.mem_map.1 hstretch
    exact ⟨⟨.event .worker rfl, by simp [beat], rfl⟩, ⟨.lookup outcomes, by simp [beat], rfl⟩⟩

theorem Dialogue.turn_worker {σ : Type} [SharedStore σ] (p : BackoffPolicy) {s : Dialogue σ}
    {t : Turn} (ht : t.isWorker = true) (hready : s.worker.step? s.service.pipeline ≠ none) :
    ∃ worker pipeline, s.worker.Step s.service.pipeline worker pipeline ∧
      s.turn p t = ⟨{ s.service with pipeline }, worker, s.sessions⟩ := by
  obtain ⟨⟨worker, pipeline⟩, hmade⟩ := Option.ne_none_iff_exists'.1 hready
  cases t with
  | lookup outcomes => cases ht
  | event e h =>
    cases e with
    | call | task | settle | stop | forget => cases ht
    | worker =>
      exact ⟨worker, pipeline, Worker.step?_spec hmade, by simp only [turn, next, hmade]⟩

theorem Dialogue.turn_lookup {σ : Type} [SharedStore σ] (p : BackoffPolicy) {s : Dialogue σ}
    {t : Turn} (ht : t.isLookup = true) {address : String}
    (hphase : s.worker.phase = .resolving address) :
    ∃ info, s.turn p t =
      { s with worker := { s.worker with phase := .resolved address info } } := by
  cases t with
  | event e h => cases ht
  | lookup outcomes =>
    have hresolving := resolving?_eq_some.2 hphase
    exact ⟨_, by simp only [turn, hresolving, next, Worker.deliver, hphase]; rfl⟩

/-- Under a condition on the state and the turns to come there is never more left to do, and whoever
is to act can act and does some of it: the lookup while one is under way, and else the worker. -/
structure Progress {σ : Type} [SharedStore σ] (p : BackoffPolicy)
    (holds : Dialogue σ → List Turn → Prop) (left : Dialogue σ → Nat) : Prop where
  keeps {s t rest} (h : holds s (t :: rest)) : holds (s.turn p t) rest
  less {s t rest} (h : holds s (t :: rest)) :
    left (s.turn p t) < left s ∨
      left (s.turn p t) = left s ∧ (s.turn p t).resolving? = s.resolving?
  ready {s turns} (h : holds s turns) (ahead : left s ≠ 0) (free : s.resolving? = none) :
    s.worker.step? s.service.pipeline ≠ none
  step {s turns worker pipeline} (h : holds s turns) (ahead : left s ≠ 0)
    (made : s.worker.Step s.service.pipeline worker pipeline) :
    left ⟨{ s.service with pipeline }, worker, s.sessions⟩ < left s
  lookup {s : Dialogue σ} {address info} (busy : s.worker.phase = .resolving address) :
    left { s with worker := { s.worker with phase := .resolved address info } } < left s

namespace Progress
variable {σ : Type} [SharedStore σ] {p : BackoffPolicy} {holds : Dialogue σ → List Turn → Prop}
  {left : Dialogue σ → Nat} {s : Dialogue σ} {turns rest : List Turn}

theorem play (progress : Progress p holds left) (h : holds s (turns ++ rest)) :
    holds (s.play p turns) rest ∧
      (left (s.play p turns) < left s ∨
        left (s.play p turns) = left s ∧ (s.play p turns).resolving? = s.resolving?) := by
  induction turns generalizing s with
  | nil => exact ⟨h, .inr ⟨rfl, rfl⟩⟩
  | cons t turns ih =>
    obtain ⟨hfinal, hturns⟩ := ih (progress.keeps h)
    refine ⟨hfinal, ?_⟩
    show left ((s.turn p t).play p turns) < _ ∨ left ((s.turn p t).play p turns) = _ ∧ _
    rcases progress.less h with hless | ⟨hsame, hresolving⟩
    · rcases hturns with hturns | ⟨hturns, -⟩
      · exact .inl (hturns.trans hless)
      · exact .inl (hturns.trans_lt hless)
    · rcases hturns with hturns | ⟨hturns, hstill⟩
      · exact .inl (hturns.trans_eq hsame)
      · exact .inr ⟨hturns.trans hsame, hstill.trans hresolving⟩

/-- A stretch in which whoever has to act has a turn lowers what is left. -/
theorem acts (progress : Progress p holds left) (h : holds s (turns ++ rest)) {t : Turn}
    (ht : t ∈ turns)
    (hacts : ∀ s' more, holds s' (t :: more) → left s' = left s →
      s'.resolving? = s.resolving? → left (s'.turn p t) < left s') :
    left (s.play p turns) < left s := by
  obtain ⟨before, after, rfl⟩ := List.append_of_mem ht
  rw [List.append_assoc, List.cons_append] at h
  obtain ⟨hthere, hbefore⟩ := progress.play h
  obtain ⟨-, hafter⟩ := progress.play (progress.keeps hthere)
  rw [Dialogue.play_append]
  show left (((s.play p before).turn p t).play p after) < _
  have hless : left ((s.play p before).turn p t) < left s := by
    rcases hbefore with hbefore | ⟨hsame, hresolving⟩
    · have hturn := progress.less hthere
      omega
    · exact (hacts _ _ hthere hsame hresolving).trans_eq hsame
  omega

/-- With every stretch there is less left, until nothing is. -/
theorem left_le (progress : Progress p holds left) {n : Nat} (h : holds s turns)
    (hbeats : Beats n turns) : left (s.play p turns) ≤ left s - n := by
  obtain ⟨stretches, rfl, hn, hbeat⟩ := hbeats
  suffices hall : left (s.play p stretches.flatten) ≤ left s - stretches.length by omega
  clear hn
  induction stretches generalizing s with
  | nil => exact Nat.le_refl _
  | cons stretch later ih =>
    rw [List.flatten_cons] at h
    obtain ⟨hthere, hle⟩ := progress.play h
    have hlater := ih hthere fun x hx => hbeat x (List.mem_cons_of_mem _ hx)
    obtain ⟨⟨t, ht, hworker⟩, u, hu, hlookup⟩ := hbeat stretch List.mem_cons_self
    have hstretch : left s ≠ 0 → left (s.play p stretch) < left s := by
      intro hahead
      cases hresolving : s.resolving? with
      | none =>
        refine progress.acts h ht fun s' more hs' hsame hstill => ?_
        have hready := progress.ready hs' (hsame ▸ hahead) (hstill.trans hresolving)
        obtain ⟨worker, pipeline, hstep, hturn⟩ := Dialogue.turn_worker p hworker hready
        rw [hturn]
        exact progress.step hs' (hsame ▸ hahead) hstep
      | some address =>
        refine progress.acts h hu fun s' more hs' _ hstill => ?_
        have hbusy := Dialogue.resolving?_eq_some.1 (hstill.trans hresolving)
        obtain ⟨info, hturn⟩ := Dialogue.turn_lookup p hlookup hbusy
        rw [hturn]
        exact progress.lookup hbusy
    rw [List.flatten_cons, Dialogue.play_append, List.length_cons]
    omega

end Progress

end AccessLog.Service
