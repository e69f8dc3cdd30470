import AccessLog.Proofs.DialogueSteps
import AccessLog.Proofs.PendingPartition
import AccessLog.Proofs.SingleLookup

/-! # What a turn can do

A turn of a dialogue makes a call, lets a call or the worker take a step, ends the lookup under way,
or does something to the worker or the cache from outside. What it does to an address is a deed, and
the deeds of a run are the record that later theorems are about.

Only two steps of a call touch the queue: one makes an address pending, the other queues it. So at
every moment the pending addresses are those queued, the one that the worker holds, and those whose
offers are half made. -/

namespace AccessLog.Service
open AccessLog.Enrich AccessLog.Stats AccessLog.Store

/-! ## Offers -/

/-- The address that a call has made pending and not queued yet. -/
def Stage.claimed? : Stage → Option String
  | .working _ t => t.claimed
  | .saving _ | .keeping _ _ | .finding _ _ | .done _ => none

/-- The addresses that calls have made pending and not queued yet. -/
def claimsOf (sessions : List Session) : List String :=
  sessions.filterMap fun x => x.stage.claimed?

def Dialogue.claimed {σ : Type} (s : Dialogue σ) : List String := claimsOf s.sessions

def Dialogue.queue {σ : Type} (s : Dialogue σ) : WorkQueue String := s.service.pipeline.queue

@[simp] theorem Stage.claimed?_ofCall (c : Call) : (Stage.ofCall c).claimed? = none := by
  cases c with
  | read | readAll | result => rfl
  | ingest createdAt reads =>
    simp only [ofCall]
    split <;> rfl

theorem claimsOf_middle (before after : List Session) (x : Session) :
    claimsOf (before ++ x :: after) =
      claimsOf before ++ (x.stage.claimed?.toList ++ claimsOf after) := by
  cases hx : x.stage.claimed? <;> simp [claimsOf, hx]

/-- A call stands at its place among the others. -/
theorem exists_middle {sessions : List Session} {number : Nat} {x : Session}
    (hx : sessions[number]? = some x) :
    ∃ before after, sessions = before ++ x :: after ∧
      ∀ y, sessions.set number y = before ++ y :: after := by
  obtain ⟨hlt, rfl⟩ := List.getElem?_eq_some_iff.1 hx
  refine ⟨sessions.take number, sessions.drop (number + 1), ?_, ?_⟩
  · rw [← List.drop_eq_getElem_cons hlt, List.take_append_drop]
  · intro y
    rw [List.set_eq_take_append_cons_drop, if_pos hlt]

/-- What a step of a call does to the queue: nothing, or one half of an offer. -/
inductive Offering : Option String → WorkQueue String → Option String → WorkQueue String → Prop
  | none {claimed q} : Offering claimed q claimed q
  | claim {q q' address} (claimed : q.claim? address = some q') :
      Offering .none q (some address) q'
  | push {q address} : Offering (some address) q .none (q.push address)

namespace Offering
variable {q q' : WorkQueue String} {claimed claimed' : Option String}

/-- What is half offered after a step was so before, or has just been made pending. -/
theorem claims (h : Offering claimed q claimed' q') {address : String}
    (hclaims : claimed' = some address) :
    claimed = some address ∨ claimed = Option.none ∧ q.claim? address = some q' := by
  cases h with
  | none => exact .inl hclaims
  | claim claimed =>
    cases hclaims
    exact .inr ⟨rfl, claimed⟩
  | push => cases hclaims

/-- A step with nothing half offered before or after leaves the queue alone. -/
theorem queue_eq (h : Offering claimed q claimed' q') (hbefore : claimed = Option.none)
    (hafter : claimed' = Option.none) : q' = q := by
  cases h with
  | none => rfl
  | claim => cases hafter
  | push => cases hbefore

end Offering

theorem Balanced.offering {q q' : WorkQueue String} {held claimed claimed' : Option String}
    {before after : List String} (h : Balanced q held (before ++ (claimed.toList ++ after)))
    (hoffering : Offering claimed q claimed' q') :
    Balanced q' held (before ++ (claimed'.toList ++ after)) := by
  cases hoffering with
  | none => exact h
  | claim claimed => exact h.claim claimed
  | push => exact h.push

section Move
variable {σ : Type} [SharedStore σ] {stage stage' : Stage} {s s' : Service σ}

theorem Stage.claimed?_of_consult {eagerTopN : UInt64} {store store' : σ}
    (h : stage.consult? eagerTopN store = some (stage', store')) :
    stage.claimed? = none ∧ stage'.claimed? = none := by
  have hsave (answer : Except StoreError Analysis) :
      (afterSave eagerTopN answer).claimed? = none := by
    cases answer with
    | error e => rfl
    | ok saved =>
      simp only [afterSave, afterKeep]
      split <;> rfl
  cases stage with
  | saving a =>
    rcases hbegin : SharedStore.begin store a with ⟨answer | ⟨id, b⟩, store''⟩ <;>
      simp only [consult?, hbegin] at h <;> cases h
    · exact ⟨rfl, hsave answer⟩
    · exact ⟨rfl, rfl⟩
  | keeping id a =>
    cases h
    exact ⟨rfl, hsave _⟩
  | finding id topN =>
    cases h
    rcases AnalysisStore.find store id with e | none | a <;> exact ⟨rfl, rfl⟩
  | working goal t => cases h
  | done reply => cases h

theorem Stage.Move.offering (h : stage.Move s stage' s') :
    Offering stage.claimed? s.pipeline.queue stage'.claimed? s'.pipeline.queue := by
  cases h with
  | ask asked =>
    obtain ⟨hbefore, hafter⟩ := claimed?_of_consult asked
    rw [hbefore, hafter]
    exact .none
  | work made =>
    cases made with
    | push => exact .push
    | claim claimed => exact .claim claimed
    | refused | known | hit | miss | save | find => exact .none
  | @reply goal t s finished =>
    simp only [claimed?, (Task.step?_eq_none finished).1]
    exact .none

/-- A step of a call leaves the cache as it is, or looks at an entry. -/
theorem Stage.Move.cache (h : stage.Move s stage' s') :
    s'.pipeline.cache = s.pipeline.cache ∨
      ∃ address, s'.pipeline.cache = (s.pipeline.cache.get address).2 := by
  cases h with
  | ask | reply => exact .inl rfl
  | work made => exact made.cache

end Move

/-! ## Deeds -/

/-- What is done to an address. -/
inductive Deed where
  /-- An offer of it is accepted. -/
  | offered (address : String)
  | taken (address : String)
  /-- The worker looks into the cache, which has an entry or not. -/
  | checked (address : String) (live : Bool)
  /-- A lookup of it ends. -/
  | settled (address : String) (result : BackoffPolicy.Resolution)
  | cached (address : String) (info : AddressInfo)
  | completed (address : String)
  deriving DecidableEq

namespace Deed

def address : Deed → String
  | offered address | taken address | checked address _ | settled address _ | cached address _
  | completed address => address

/-- Whether it is the worker that does it. -/
def isWork : Deed → Bool
  | offered _ => false
  | taken _ | checked _ _ | settled _ _ | cached _ _ | completed _ => true

/-- What a call does when it goes from one claim to another. -/
def ofClaims? : Option String → Option String → Option Deed
  | none, some address => some (.offered address)
  | _, _ => none

/-- What the worker does when it goes from one phase to another, with this cache before it. -/
def ofPhases? (c : Cache) : Phase → Phase → Option Deed
  | .idle, .taken address => some (.taken address)
  | .waiting _, .taken address => some (.taken address)
  | .taken address, .resolving _ => some (.checked address (c.holds address))
  | .taken address, .cached _ => some (.checked address (c.holds address))
  | .resolved address info, .cached _ => some (.cached address info)
  | .cached address, .idle => some (.completed address)
  | _, _ => none

theorem ofClaims?_eq_some {claimed claimed' : Option String} {d : Deed} :
    ofClaims? claimed claimed' = some d ↔
      claimed = none ∧ ∃ address, claimed' = some address ∧ d = .offered address := by
  cases claimed <;> cases claimed' <;> simp [ofClaims?, eq_comm]

@[simp] theorem ofClaims?_self (claimed : Option String) : ofClaims? claimed claimed = none := by
  cases claimed <;> rfl

@[simp] theorem ofPhases?_self (c : Cache) (phase : Phase) : ofPhases? c phase phase = none := by
  cases phase <;> rfl

end Deed

/-! ## Turns -/

namespace Dialogue
variable {σ : Type}

theorem resolving?_eq_some {s : Dialogue σ} {address : String} :
    s.resolving? = some address ↔ s.worker.phase = .resolving address := by
  unfold resolving?
  cases s.worker.phase <;> simp

/-- The address that the call of a number has made pending and not queued yet. -/
def claimedBy? (s : Dialogue σ) (number : Nat) : Option String :=
  s.sessions[number]?.bind fun x => x.stage.claimed?

/-- The pending addresses are those queued, the one held and those whose offer is half made. -/
def IsBalanced (s : Dialogue σ) : Prop := Balanced s.queue s.worker.held? s.claimed

theorem isBalanced_start (store : σ) (cache : Cache) (eagerTopN : UInt64) :
    (start store cache eagerTopN).IsBalanced := ⟨List.nodup_nil, .refl _⟩

variable [SharedStore σ]

/-- The deed that is done at a turn. -/
def deed? (p : BackoffPolicy) (s : Dialogue σ) : Turn → Option Deed
  | .lookup outcomes =>
    s.resolving?.map fun address => .settled address (p.trace address outcomes).result
  | .event .worker _ => Deed.ofPhases? s.cache s.worker.phase (s.next .worker).worker.phase
  | .event (.task number) _ =>
    Deed.ofClaims? (s.claimedBy? number) ((s.next (.task number)).claimedBy? number)
  | .event _ _ => none

/-- The deeds in the course of some turns. -/
def deeds (p : BackoffPolicy) (s : Dialogue σ) : List Turn → List Deed
  | [] => []
  | t :: rest => (s.deed? p t).toList ++ deeds p (s.turn p t) rest

/-- What comes of a turn, with the deed that is done. -/
inductive Change (p : BackoffPolicy) (s : Dialogue σ) : Turn → Option Deed → Dialogue σ → Prop
  | call {c h} :
      Change p s (.event (.call c) h) none { s with sessions := s.sessions ++ [⟨c, .ofCall c⟩] }
  | task {number h call stage stage' service}
      (stands : s.sessions[number]? = some ⟨call, stage⟩)
      (moved : stage.Move s.service stage' service) :
      Change p s (.event (.task number) h) (Deed.ofClaims? stage.claimed? stage'.claimed?)
        ⟨service, s.worker, s.sessions.set number ⟨call, stage'⟩⟩
  | worker {h worker pipeline} (made : s.worker.Step s.service.pipeline worker pipeline) :
      Change p s (.event .worker h) (Deed.ofPhases? s.cache s.worker.phase worker.phase)
        ⟨{ s.service with pipeline }, worker, s.sessions⟩
  | lookup {outcomes address} (resolving : s.worker.phase = .resolving address) :
      Change p s (.lookup outcomes) (some (.settled address (p.trace address outcomes).result))
        { s with worker := { s.worker with
            phase := .resolved address ((p.trace address outcomes).result.settled address) } }
  | stop {h} : Change p s (.event .stop h) none { s with worker := s.worker.tellToStop }
  | forget {address h} :
      Change p s (.event (.forget address) h) none
        { s with service := { s.service with pipeline := { s.service.pipeline with
            cache := s.cache.forget address } } }
  /-- Nothing can be done at this turn. -/
  | none {t} : Change p s t none s

theorem change_turn (p : BackoffPolicy) (s : Dialogue σ) (t : Turn) :
    s.Change p t (s.deed? p t) (s.turn p t) := by
  cases t with
  | event e h =>
    cases e with
    | call c => exact .call
    | task number =>
      rcases s.next_task number with ⟨hsame, -⟩ | ⟨call, stage, stage', service, hx, hmove, hnext⟩
      · simp only [turn, deed?, hsame, Deed.ofClaims?_self]
        exact .none
      · obtain ⟨hlt, -⟩ := List.getElem?_eq_some_iff.1 hx
        have hafter : (s.sessions.set number ⟨call, stage'⟩)[number]? = some ⟨call, stage'⟩ := by
          simp [hlt]
        simp only [turn, deed?, hnext, claimedBy?, hx, hafter, Option.bind_some]
        exact .task hx hmove
    | worker =>
      rcases s.next_worker with hsame | ⟨worker, pipeline, hstep, hnext⟩
      · simp only [turn, deed?, hsame, Deed.ofPhases?_self]
        exact .none
      · simp only [turn, deed?, hnext]
        exact .worker hstep
    | settle result => cases h
    | stop => exact .stop
    | forget address => exact .forget
  | lookup outcomes =>
    cases hresolving : s.resolving? with
    | none =>
      simp only [turn, deed?, hresolving]
      exact .none
    | some address =>
      have hphase := resolving?_eq_some.1 hresolving
      simp only [turn, deed?, hresolving, next, Worker.deliver, hphase]
      exact .lookup hphase

theorem play_append (p : BackoffPolicy) (s : Dialogue σ) (turns more : List Turn) :
    s.play p (turns ++ more) = (s.play p turns).play p more := by
  simp [play, List.foldl_append]

theorem deeds_append (p : BackoffPolicy) (s : Dialogue σ) (turns more : List Turn) :
    s.deeds p (turns ++ more) = s.deeds p turns ++ (s.play p turns).deeds p more := by
  induction turns generalizing s with
  | nil => rfl
  | cons t rest ih =>
    show (s.deed? p t).toList ++ deeds p (s.turn p t) (rest ++ more) = _
    rw [ih, ← List.append_assoc]
    rfl

/-- What every turn keeps is kept by many, of the state and of the deeds that have led to it. -/
theorem play_induction {p : BackoffPolicy} {P : List Deed → Dialogue σ → Prop} {turns : List Turn}
    (hchange : ∀ past s t d s', t ∈ turns → Change p s t d s' → P past s → P (past ++ d.toList) s')
    {s : Dialogue σ} (h : P [] s) : P (s.deeds p turns) (s.play p turns) := by
  suffices hfrom : ∀ past s, P past s → P (past ++ s.deeds p turns) (s.play p turns) from
    hfrom [] s h
  intro past s h
  induction turns generalizing s past with
  | nil =>
    rw [deeds, List.append_nil]
    exact h
  | cons t rest ih =>
    rw [deeds, ← List.append_assoc]
    exact ih (fun past s u d s' hu => hchange past s u d s' (List.mem_cons_of_mem _ hu)) _ _
      (hchange past s t _ _ List.mem_cons_self (s.change_turn p t) h)

/-! ## Where a pending address is -/

theorem Change.isBalanced {p : BackoffPolicy} {s s' : Dialogue σ} {t : Turn} {d : Option Deed}
    (h : s.Change p t d s') (hs : s.IsBalanced) : s'.IsBalanced := by
  cases h with
  | @call c =>
    have hclaimed : claimsOf (s.sessions ++ [⟨c, .ofCall c⟩]) = s.claimed := by
      rw [claimsOf_middle, Stage.claimed?_ofCall]
      simp [claimed, claimsOf]
    rw [IsBalanced, claimed, hclaimed]
    exact hs
  | task stands moved =>
    obtain ⟨before, after, hbefore, hafter⟩ := exists_middle stands
    rw [IsBalanced, claimed, hbefore, claimsOf_middle] at hs
    rw [IsBalanced, claimed, hafter, claimsOf_middle]
    exact hs.offering moved.offering
  | worker made => exact balanced_worker made hs
  | lookup resolving =>
    rw [IsBalanced, Worker.held?, resolving] at hs
    exact hs
  | stop | forget | none => exact hs

theorem isBalanced_play (p : BackoffPolicy) {s : Dialogue σ} (h : s.IsBalanced)
    (turns : List Turn) : (s.play p turns).IsBalanced :=
  play_induction (P := fun _ s => s.IsBalanced)
    (fun _ _ _ _ _ _ hchange hs => hchange.isBalanced hs) h

end Dialogue

/-! ## Replies and waits -/

/-- Whether the call of a number has a turn. -/
def Turn.isStepOf (number : Nat) : Turn → Bool
  | .event e _ => e.isStepOf number
  | .lookup _ => false

namespace Dialogue
variable {σ : Type} [SharedStore σ]

/-- What comes of some turns comes of a schedule in which each call has as many turns. -/
theorem play_eq_run (p : BackoffPolicy) (s : Dialogue σ) (turns : List Turn) :
    ∃ events, s.play p turns = s.run events ∧
      ∀ number, turnsOf number events = turns.countP (Turn.isStepOf number) := by
  induction turns generalizing s with
  | nil => exact ⟨[], rfl, fun _ => rfl⟩
  | cons t rest ih =>
    obtain ⟨events, hrun, hcount⟩ := ih (s.turn p t)
    have hnext : ∃ first, s.turn p t = s.run first ∧
        ∀ number, turnsOf number first = if t.isStepOf number then 1 else 0 := by
      cases t with
      | event e h =>
        refine ⟨[e], rfl, fun number => ?_⟩
        rw [turnsOf, List.countP_singleton]
        rfl
      | lookup outcomes =>
        cases hresolving : s.resolving? with
        | none => exact ⟨[], by simp only [turn, hresolving]; rfl, fun _ => rfl⟩
        | some address => exact ⟨[.settle _], by simp only [turn, hresolving]; rfl, fun _ => rfl⟩
    obtain ⟨first, hfirst, hone⟩ := hnext
    refine ⟨first ++ events, ?_, ?_⟩
    · show (s.turn p t).play p rest = _
      rw [hrun, hfirst, run_append]
    · intro number
      have hsum : turnsOf number (first ++ events) = turnsOf number first + turnsOf number events :=
        List.countP_append
      rw [hsum, hone, hcount, List.countP_cons, Nat.add_comm]

/-- A call has its reply once it has had as many turns as it may need. -/
theorem replied_play (p : BackoffPolicy) {s : Dialogue σ} {number : Nat} {c : Call}
    {turns : List Turn} (hx : s.sessions[number]? = some ⟨c, .ofCall c⟩)
    (hturns : c.patience s.service.eagerTopN ≤ turns.countP (Turn.isStepOf number)) :
    ∃ reply, (s.play p turns).reply? number = some reply := by
  obtain ⟨events, hrun, hcount⟩ := s.play_eq_run p turns
  obtain ⟨stage, hstage, hahead⟩ := ahead_run events hx (Stage.isLight_ofCall c)
  have hpatience := c.ahead_le_patience s.service.eagerTopN
  rw [hcount] at hahead
  obtain ⟨reply, rfl⟩ := stage.done_of_ahead (by omega : stage.ahead s.service.eagerTopN = 0)
  refine ⟨reply, ?_⟩
  rw [hrun, reply?, hstage]
  rfl

/-- A wait that ends well ends with nothing pending. -/
theorem await?_eq_some {p : BackoffPolicy} {s : Dialogue σ} {looks : List (List Turn)}
    {waiting : List Turn} (h : s.await? p looks = some waiting) :
    (s.play p waiting).queue.pending = [] ∧ waiting <+: looks.flatten := by
  induction looks generalizing s waiting with
  | nil => cases h
  | cons stretch rest ih =>
    simp only [await?] at h
    split at h
    · rename_i hcount
      cases h
      exact ⟨List.eq_nil_of_length_eq_zero hcount, List.prefix_append _ _⟩
    · obtain ⟨later, hlater, rfl⟩ := Option.map_eq_some_iff.1 h
      obtain ⟨hquiet, hpassed⟩ := ih hlater
      refine ⟨?_, (List.prefix_append_right_inj _).2 hpassed⟩
      rw [play_append]
      exact hquiet

end Dialogue

end AccessLog.Service
