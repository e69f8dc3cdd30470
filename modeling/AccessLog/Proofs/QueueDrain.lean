import AccessLog.Proofs.LookupResults
import AccessLog.Proofs.WorkerRounds
import AccessLog.Store.Memory

/-! # The queue drains

When nothing more is offered the worker goes through the queue from its front, one round for each
address, however lookups end and whatever the cache holds or keeps. An address is looked up where
the cache has no entry for it when its turn comes. After as many rounds as there were addresses
nothing is queued or pending, and it gets that far as long as it has its turns and lookups end. -/

namespace AccessLog.Enrich

/-- Nothing keeps the worker from going on: it has neither stopped nor been told to, and does not
wait beside an item that it has not been notified of. -/
def Worker.Awake (w : Worker) (q : WorkQueue String) : Prop :=
  w.stopping = false ∧ w.phase ≠ .stopped ∧
    ∀ ticket, w.phase = .waiting ticket → q.items = [] ∨ q.isNotified ticket = true

/-- How many steps it takes the worker to be through with the queue: five for each address. -/
def Worker.toDrain (w : Worker) (q : WorkQueue String) : Nat :=
  5 * q.items.length + w.phase.stepsLeft

theorem WorkQueue.begin_spec {α : Type} (q : WorkQueue α) :
    (∃ item items, q.items = item :: items ∧ q.begin = (.item item, { q with items })) ∨
      q.items = [] ∧ q.begin = q.wait := by
  cases hitems : q.items with
  | nil => exact .inr ⟨rfl, by simp only [begin, hitems]⟩
  | cons item items => exact .inl ⟨item, items, rfl, by simp only [begin, hitems]⟩

/-- A take brings the worker nearer to the end of the queue, or finds it there. -/
theorem Worker.toDrain_take (q : WorkQueue String) :
    Awake ⟨afterTake q.begin.1, false⟩ q.begin.2 ∧
      (toDrain ⟨afterTake q.begin.1, false⟩ q.begin.2 < 5 * q.items.length ∨
        q.items = [] ∧ toDrain ⟨afterTake q.begin.1, false⟩ q.begin.2 = 0 ∧
          ∃ ticket, afterTake q.begin.1 = .waiting ticket) := by
  rcases q.begin_spec with ⟨item, items, hitems, hbegin⟩ | ⟨hitems, hbegin⟩
  · rw [hbegin, hitems]
    refine ⟨⟨rfl, by simp [afterTake], by simp [afterTake]⟩, .inl ?_⟩
    simp only [toDrain, afterTake, Phase.stepsLeft, List.length_cons]
    omega
  · rw [hbegin]
    have hawake : Awake ⟨afterTake q.wait.1, false⟩ q.wait.2 :=
      ⟨rfl, by simp [afterTake, WorkQueue.wait], fun _ _ => .inl hitems⟩
    refine ⟨hawake, .inr ⟨hitems, ?_, _, rfl⟩⟩
    simp [toDrain, afterTake, WorkQueue.wait, Phase.stepsLeft, hitems]

/-- Every step brings the worker nearer to the end of the queue, unless it is there. -/
theorem Worker.Step.toDrain {w w' : Worker} {p p' : Pipeline} (h : w.Step p w' p')
    (hawake : w.Awake p.queue) :
    w'.Awake p'.queue ∧ (w'.toDrain p'.queue < w.toDrain p.queue ∨
      w.toDrain p.queue = 0 ∧ w'.toDrain p'.queue = 0 ∧
        (∀ address, w.phase ≠ .resolving address) ∧ ∃ ticket, w'.phase = .waiting ticket) := by
  obtain ⟨hgoing, -, -⟩ := hawake
  cases h with
  | stop | giveUp => cases hgoing
  | take =>
    obtain ⟨hawake', hless | ⟨hitems, hdone, hwaits⟩⟩ := toDrain_take p.queue
    · exact ⟨hawake', .inl hless⟩
    · have hover : Worker.toDrain .start p.queue = 0 := by
        simp [Worker.toDrain, Worker.start, Phase.stepsLeft, hitems]
      exact ⟨hawake', .inr ⟨hover, hdone, by simp, hwaits⟩⟩
  | @retake _ ticket notified =>
    have hpoll : p.queue.poll ticket = (p.queue.removeWaiter ticket).begin := by
      rw [WorkQueue.poll, if_pos notified]
    rw [hpoll]
    obtain ⟨hawake', hless | ⟨hitems, hdone, hwaits⟩⟩ := toDrain_take (p.queue.removeWaiter ticket)
    · exact ⟨hawake', .inl hless⟩
    · rw [WorkQueue.removeWaiter_items] at hitems
      have hover : Worker.toDrain ⟨.waiting ticket, false⟩ p.queue = 0 := by
        simp [Worker.toDrain, Phase.stepsLeft, hitems]
      exact ⟨hawake', .inr ⟨hover, hdone, by simp, hwaits⟩⟩
  | hit | miss | record | release =>
    refine ⟨⟨hgoing, by simp, by simp⟩, .inl ?_⟩
    simp [Worker.toDrain, Phase.stepsLeft, Pipeline.record, Pipeline.release, WorkQueue.complete]

end AccessLog.Enrich

namespace AccessLog.Service
open AccessLog.Enrich AccessLog.Store

theorem stepsLeft_eq_zero {w : Worker} : w.phase.stepsLeft = 0 ↔ w.held? = none := by
  obtain ⟨phase, stopping⟩ := w
  cases phase <;> simp [Phase.stepsLeft, Worker.held?]

def Turn.isStop : Turn → Bool
  | .event e _ =>
    match e with
    | .stop => true
    | .call _ | .task _ | .worker | .settle _ | .forget _ => false
  | .lookup _ => false

namespace Dialogue
variable {σ : Type} [SharedStore σ] {p : BackoffPolicy} {s s' : Dialogue σ} {t : Turn}
  {d : Option Deed}

/-! ## Nothing more is offered -/

theorem Change.claimed_eq_nil (h : s.Change p t d s') (hclaimed : s.claimed = [])
    (hnew : ∀ address, d ≠ some (.offered address)) : s'.claimed = [] := by
  refine List.eq_nil_iff_forall_not_mem.2 fun address hmem => ?_
  rcases h.claims hmem with hbefore | hoffered
  · rw [hclaimed] at hbefore
    cases hbefore
  · exact hnew address hoffered

/-- Where no offer is half made and none is accepted, calls leave the queue alone. -/
theorem queue_eq_of_move {stage stage' : Stage} {service service' : Service σ}
    (h : stage.Move service stage' service') (hclaimed : stage.claimed? = none)
    (hnew : ∀ address, Deed.ofClaims? stage.claimed? stage'.claimed? ≠ some (.offered address)) :
    service'.pipeline.queue = service.pipeline.queue := by
  refine h.offering.queue_eq hclaimed (Option.eq_none_iff_forall_ne_some.2 fun address hafter => ?_)
  exact hnew address (Deed.ofClaims?_eq_some.2 ⟨hclaimed, address, hafter, rfl⟩)

/-- Unless more is offered or it is told to stop, the worker gets nearer to the end of the queue. -/
theorem Change.toDrain (h : s.Change p t d s') (hclaimed : s.claimed = [])
    (hnew : ∀ address, d ≠ some (.offered address)) (hgoes : t.isStop = false)
    (hawake : s.worker.Awake s.queue) :
    s'.worker.Awake s'.queue ∧
      (s'.worker.toDrain s'.queue < s.worker.toDrain s.queue ∨
        s'.worker.toDrain s'.queue = s.worker.toDrain s.queue ∧ s'.resolving? = s.resolving?) := by
  cases h with
  | call | forget | none => exact ⟨hawake, .inr ⟨rfl, rfl⟩⟩
  | stop => cases hgoes
  | @task number _ call stage stage' service stands moved =>
    have hnone : stage.claimed? = Option.none :=
      List.filterMap_eq_nil_iff.1 hclaimed ⟨call, stage⟩ (List.mem_of_getElem? stands)
    have hqueue : (⟨service, s.worker, s.sessions.set number ⟨call, stage'⟩⟩ : Dialogue σ).queue =
        s.queue := queue_eq_of_move moved hnone hnew
    rw [hqueue]
    exact ⟨hawake, .inr ⟨rfl, rfl⟩⟩
  | @worker _ worker pipeline made =>
    obtain ⟨hawake', hless | ⟨hdone, hdone', hfree, ticket, hwaits⟩⟩ := made.toDrain hawake
    · exact ⟨hawake', .inl hless⟩
    · refine ⟨hawake', .inr ⟨hdone'.trans hdone.symm, ?_⟩⟩
      have hnone : s.resolving? = Option.none :=
        Option.eq_none_iff_forall_ne_some.2 fun address hsome =>
          hfree address (resolving?_eq_some.1 hsome)
      rw [hnone]
      simp only [resolving?, hwaits]
  | @lookup outcomes address resolving =>
    refine ⟨⟨hawake.1, by simp, by simp⟩, .inl ?_⟩
    simp [Worker.toDrain, Phase.stepsLeft, resolving, queue]

/-- The state of a drain, with the turns to come. -/
structure Drains (p : BackoffPolicy) (s : Dialogue σ) (turns : List Turn) : Prop where
  claimed : s.claimed = []
  awake : s.worker.Awake s.queue
  offers : ∀ address, .offered address ∉ s.deeds p turns
  goes : ∀ t ∈ turns, t.isStop = false

namespace Drains
variable {turns rest : List Turn}

theorem new (h : s.Drains p (t :: rest)) (address : String) :
    s.deed? p t ≠ some (.offered address) := by
  intro hoffered
  refine h.offers address ?_
  rw [deeds, hoffered]
  exact List.mem_cons_self

theorem progress (p : BackoffPolicy) :
    Progress p (fun (s : Dialogue σ) turns => s.Drains p turns) fun s =>
      s.worker.toDrain s.queue where
  keeps {s t rest} h := by
    have hchange := s.change_turn p t
    refine ⟨hchange.claimed_eq_nil h.claimed h.new,
      (hchange.toDrain h.claimed h.new (h.goes t List.mem_cons_self) h.awake).1, ?_, ?_⟩
    · intro address hmem
      exact h.offers address (List.mem_append_right _ hmem)
    · intro u hu
      exact h.goes u (List.mem_cons_of_mem _ hu)
  less {s t rest} h :=
    ((s.change_turn p t).toDrain h.claimed h.new (h.goes t List.mem_cons_self) h.awake).2
  ready {s turns} h ahead free hstep := by
    obtain ⟨hgoing, hruns, htold⟩ := h.awake
    rcases Worker.step?_eq_none hstep with ⟨address, hphase⟩ | hphase | ⟨ticket, hphase, -, hnot⟩
    · rw [resolving?_eq_some.2 hphase] at free
      cases free
    · exact hruns hphase
    · rcases htold ticket hphase with hitems | hnotified
      · exact ahead (by simp [Worker.toDrain, Phase.stepsLeft, hphase, hitems])
      · exact Bool.false_ne_true (hnot.symm.trans hnotified)
  step h ahead made := by
    obtain ⟨-, hless | ⟨hdone, -⟩⟩ := made.toDrain h.awake
    · exact hless
    · exact absurd hdone ahead
  lookup busy := by simp [Worker.toDrain, Phase.stepsLeft, busy, queue]

/-- With its turns the worker gets to the end of the queue. -/
theorem drained (h : s.Drains p turns) (hfree : s.worker.held? = none)
    (hbeats : Beats (5 * s.queue.size) turns) :
    (s.play p turns).worker.held? = none ∧ (s.play p turns).queue.items = [] := by
  have hless := (progress p).left_le h hbeats
  have hsize : s.worker.toDrain s.queue = 5 * s.queue.size :=
    congrArg (5 * s.queue.size + ·) (stepsLeft_eq_zero.2 hfree)
  obtain ⟨hnone, hsteps⟩ := Nat.add_eq_zero_iff.1 (by omega :
    (s.play p turns).worker.toDrain (s.play p turns).queue = 0)
  exact ⟨stepsLeft_eq_zero.1 hsteps, List.length_eq_zero_iff.1 (by omega)⟩

end Drains

/-- Along a run in which nothing is offered the worker takes what was queued, from its front. -/
theorem takes_play (p : BackoffPolicy) {s : Dialogue σ} (hclaimed : s.claimed = [])
    (turns : List Turn) (hnew : ∀ address, .offered address ∉ s.deeds p turns) :
    (s.play p turns).claimed = [] ∧
      takesOf (s.deeds p turns) ++ (s.play p turns).queue.items = s.queue.items := by
  refine play_induction (P := fun past s' => (∀ address, .offered address ∉ past) →
    s'.claimed = [] ∧ takesOf past ++ s'.queue.items = s.queue.items)
    ?_ (fun _ => ⟨hclaimed, rfl⟩) hnew
  intro past before t d after _ hchange hbefore hnone
  obtain ⟨hquiet, htaken⟩ := hbefore fun address hmem =>
    hnone address (List.mem_append_left _ hmem)
  have hnew (address : String) : d ≠ some (.offered address) := by
    rintro rfl
    exact hnone address (List.mem_append_right _ List.mem_cons_self)
  refine ⟨hchange.claimed_eq_nil hquiet hnew, ?_⟩
  obtain ⟨pushed, hitems, hpushed⟩ := hchange.takes
  rw [hquiet] at hpushed
  have hnothing : pushed = [] :=
    List.eq_nil_iff_forall_not_mem.2 fun address hmem => nomatch hpushed address hmem
  rw [hnothing, List.append_nil] at hitems
  rw [takesOf_append, List.append_assoc, hitems, htaken]

end Dialogue

theorem mem_workOf {d : Deed} {deeds : List Deed} (h : d.isWork = true) :
    d ∈ workOf deeds ↔ d ∈ deeds := by
  simp [workOf, h]

/-- Everything in a round concerns the address taken. -/
theorem Underway.mem_takes {phase : Phase} {opened : List Deed} (h : Underway phase opened) :
    ∀ d ∈ opened, d.address ∈ takesOf opened := by
  cases h <;> simp [takesOf, Deed.taken?, Deed.address]

/-- A worker with nothing in hand is between two rounds. -/
theorem Underway.of_free {w : Worker} (h : w.held? = none) : Underway w.phase [] := by
  obtain ⟨phase, stopping⟩ := w
  cases phase with
  | idle => exact .idle
  | waiting ticket => exact .waiting
  | stopped => exact .stopped
  | taken | resolving | resolved | cached => cases h

namespace Worked
variable {deeds : List Deed} {rounds : List Round} {w : Worker} {address : String}

/-- What has been looked up was not cached. -/
theorem checked_of_settled (h : Worked deeds rounds w.phase) {result : BackoffPolicy.Resolution}
    (hsettled : .settled address result ∈ deeds) : .checked address false ∈ deeds := by
  obtain ⟨opened, hdeeds, hunderway⟩ := h
  rw [← mem_workOf rfl, hdeeds, List.mem_append] at hsettled ⊢
  rcases hsettled with hsettled | hsettled
  · left
    obtain ⟨round, hround, hmem⟩ := List.mem_flatMap.1 hsettled
    refine List.mem_flatMap.2 ⟨round, hround, ?_⟩
    cases round with
    | known other => simp [Round.deeds] at hmem
    | lookedUp other result' =>
      obtain ⟨rfl, -⟩ : address = other ∧ result = result' := by simpa [Round.deeds] using hmem
      simp [Round.deeds]
  · right
    generalize w.phase = phase at hunderway
    cases hunderway with
    | idle | waiting | stopped | taken | resolving | known => simp at hsettled
    | resolved | cached =>
      obtain ⟨rfl, -⟩ : address = _ ∧ _ := by simpa using hsettled
      simp

/-- What was not cached has been looked up, unless the worker is still at it. -/
theorem settled_of_checked (h : Worked deeds rounds w.phase) (hheld : w.held? ≠ some address)
    (hchecked : .checked address false ∈ deeds) : ∃ result, .settled address result ∈ deeds := by
  obtain ⟨opened, hdeeds, hunderway⟩ := h
  rw [← mem_workOf rfl, hdeeds, List.mem_append] at hchecked
  rcases hchecked with hchecked | hchecked
  · obtain ⟨round, hround, hmem⟩ := List.mem_flatMap.1 hchecked
    cases round with
    | known other => simp [Round.deeds] at hmem
    | lookedUp other result =>
      obtain rfl : address = other := by simpa [Round.deeds] using hmem
      refine ⟨result, (mem_workOf rfl).1 ?_⟩
      rw [hdeeds]
      refine List.mem_append_left _ (List.mem_flatMap.2 ⟨_, hround, ?_⟩)
      simp [Round.deeds]
  · have htaken := hunderway.mem_takes _ hchecked
    rw [hunderway.takes, Option.mem_toList] at htaken
    exact absurd htaken hheld

end Worked

/-- From a queue whose addresses are just the pending ones, none of them twice, and with no further
offers, the worker goes through the queue from its front, one round for each address. After as many
rounds as there were addresses, and no sooner, nothing is queued or pending, and with its turns it
gets there. An address is looked up just where the cache has no entry for it when its turn comes. -/
theorem queue_drains {σ : Type} [SharedStore σ] (p : BackoffPolicy) (s : Dialogue σ)
    (hnodup : s.queue.items.Nodup) (hpending : s.queue.pending.Perm s.queue.items)
    (hfree : s.worker.held? = none) (hawake : s.worker.Awake s.queue) (hclaimed : s.claimed = [])
    (turns : List Turn) (hoffers : ∀ address, .offered address ∉ s.deeds p turns) :
    let final := s.play p turns
    ∃ (rounds : List Round) (opened : List Deed),
      workOf (s.deeds p turns) = rounds.flatMap Round.deeds ++ opened ∧
      Underway final.worker.phase opened ∧
      rounds.map Round.address ++ final.worker.held?.toList ++ final.queue.items = s.queue.items ∧
      final.queue.pending.Perm (final.worker.held?.toList ++ final.queue.items) ∧
      (rounds.length = s.queue.size ↔ final.queue.items = [] ∧ final.queue.pending = []) ∧
      ((∀ t ∈ turns, t.isStop = false) → Beats (5 * s.queue.size) turns →
        rounds.length = s.queue.size) ∧
      (∀ address outcome, (address, outcome) ∈ s.calls p turns →
        .checked address false ∈ s.deeds p turns) ∧
      ∀ round ∈ rounds, .checked round.address false ∈ s.deeds p turns →
        ∃ outcome, (round.address, outcome) ∈ s.calls p turns := by
  intro final
  have hbalanced : s.IsBalanced := by
    refine ⟨hpending.nodup_iff.2 hnodup, ?_⟩
    rw [hfree, hclaimed]
    simpa using hpending
  obtain ⟨rounds, hworked⟩ : ∃ rounds, Worked (s.deeds p turns) rounds final.worker.phase :=
    Dialogue.worked_play p (.of_free hfree) turns
  obtain ⟨hclaimed', hitems⟩ := Dialogue.takes_play p hclaimed turns hoffers
  have horder : rounds.map Round.address ++ final.worker.held?.toList ++ final.queue.items =
      s.queue.items := by
    rw [← hitems, hworked.takes]
  have hleft : final.queue.pending.Perm (final.worker.held?.toList ++ final.queue.items) := by
    have hperm := (Dialogue.isBalanced_play p hbalanced turns).2
    rw [hclaimed', List.append_nil] at hperm
    exact hperm.trans List.perm_append_comm
  have hlength : rounds.length + (final.worker.held?.toList ++ final.queue.items).length =
      s.queue.size := by
    have hlengths := congrArg List.length horder
    simpa [WorkQueue.size, Nat.add_assoc] using hlengths
  have hdone : rounds.length = s.queue.size ↔
      final.worker.held?.toList ++ final.queue.items = [] := by
    rw [← List.length_eq_zero_iff]
    omega
  have hfull := hworked
  obtain ⟨opened, hdeeds, hunderway⟩ := hworked
  refine ⟨rounds, opened, hdeeds, hunderway, horder, hleft, ?_, ?_, ?_, ?_⟩
  · rw [hdone]
    constructor
    · intro hnone
      rw [hnone] at hleft
      exact ⟨(List.append_eq_nil_iff.1 hnone).2, hleft.eq_nil⟩
    · rintro ⟨-, hnone⟩
      rw [hnone] at hleft
      exact hleft.symm.eq_nil
  · intro hgoes hbeats
    have hdrains : s.Drains p turns := ⟨hclaimed, hawake, hoffers, hgoes⟩
    obtain ⟨hnone, hitems⟩ := hdrains.drained hfree hbeats
    refine hdone.2 (List.append_eq_nil_iff.2 ⟨?_, hitems⟩)
    rw [hnone]
    rfl
  · intro address outcome hcall
    obtain ⟨result, hsettled⟩ := (Dialogue.called_iff_settled p s turns address).1 ⟨outcome, hcall⟩
    exact hfull.checked_of_settled hsettled
  · intro round hround hchecked
    have hapart : final.worker.held? ≠ some round.address := by
      intro hheld
      rw [← horder, hheld, List.append_assoc] at hnodup
      have hmem : round.address ∈ rounds.map Round.address := List.mem_map_of_mem hround
      exact List.disjoint_of_nodup_append hnodup hmem (List.mem_append_left _ (by simp))
    exact (Dialogue.called_iff_settled p s turns _).2 (hfull.settled_of_checked hapart hchecked)

/-- Three addresses are queued. There is room for one in the cache, which has an entry for the first
of them. -/
def threeQueued : Dialogue MemoryStore where
  service := ⟨.empty, ⟨(WorkQueue.empty.offerAll ["9.9.9.9", "8.8.8.8", "7.7.7.7"]).2,
    ⟨1, .ofSeconds 60, [("9.9.9.9", .unknown "9.9.9.9")]⟩⟩, 10⟩
  worker := .start
  sessions := []

/-- A lookup of the second address breaks down, and one of the third finds something when it is
tried again. -/
def lookupScript : List (Nat → Outcome) :=
  List.replicate 7 (fun _ => .crashed "lookup exploded") ++
    List.replicate 8 fun i =>
      if i = 0 then .failed .timeout else .found ⟨"7.7.7.7", some "US", none, none, none⟩

def drained : List Turn := lookupScript.flatMap beat

theorem queue_drains_threeQueued :
    let s := threeQueued
    let final := s.play .standard drained
    s.queue.items.Nodup ∧ s.queue.pending.Perm s.queue.items ∧ s.worker.held? = none ∧
      s.worker.Awake s.queue ∧ s.claimed = [] ∧
      (∀ address, .offered address ∉ s.deeds .standard drained) ∧ Beats 15 drained ∧
      (∃ rounds : List Round, rounds.map Round.address = ["9.9.9.9", "8.8.8.8", "7.7.7.7"] ∧
        final.queue.items = [] ∧ final.queue.pending = []) ∧
      (s.calls .standard drained).map Prod.fst = ["8.8.8.8", "7.7.7.7", "7.7.7.7"] ∧
      ∀ call ∈ s.calls .standard drained, .checked call.1 false ∈ s.deeds .standard drained := by
  have hnodup : threeQueued.queue.items.Nodup := by decide
  have hpending : threeQueued.queue.pending.Perm threeQueued.queue.items := by decide
  have hawake : threeQueued.worker.Awake threeQueued.queue :=
    ⟨rfl, by decide, fun ticket h => nomatch h⟩
  have hwork : ∀ d ∈ threeQueued.deeds .standard drained, d.isWork = true := by decide +kernel
  have hoffers (address : String) : .offered address ∉ threeQueued.deeds .standard drained :=
    fun hmem => nomatch hwork _ hmem
  have hgoes : ∀ t ∈ drained, t.isStop = false := by decide +kernel
  have hbeats : Beats 15 drained := beats_flatMap _
  obtain ⟨rounds, opened, -, -, horder, -, hdone, hdrains, hcalls, -⟩ :=
    queue_drains .standard threeQueued hnodup hpending rfl hawake rfl drained hoffers
  have hlength : rounds.length = 3 := hdrains hgoes hbeats
  obtain ⟨hitems, hnone⟩ := hdone.1 hlength
  have hheld : (threeQueued.play .standard drained).worker.held? = none := by decide +kernel
  rw [hheld, hitems, Option.toList_none, List.append_nil, List.append_nil] at horder
  dsimp only
  refine ⟨hnodup, hpending, rfl, hawake, rfl, hoffers, hbeats, ⟨rounds, ?_, hitems, hnone⟩, ?_,
    fun call hcall => hcalls call.1 call.2 hcall⟩
  · exact horder.trans (by decide)
  · decide +kernel

end AccessLog.Service
