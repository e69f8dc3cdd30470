import AccessLog.Proofs.CacheBounds
import AccessLog.Proofs.WorkerRounds

/-! # What a round leaves in the cache

A round either finds its address in the cache or puts there what its lookup has come to. No other
step puts anything into the cache: calls only look at entries, and an entry whose time is over is
dropped. So until the worker takes another address, what the last round has left is there, unless it
has been dropped. -/

namespace AccessLog.Enrich.Cache

/-- Entries live for some time, and there is room for one at least. -/
def Lasts (c : Cache) : Prop := c.ttl.nanos ≠ 0 ∧ 0 < c.capacity.toNat

@[simp] theorem lasts_get (c : Cache) (address : String) :
    (c.get address).2.Lasts ↔ c.Lasts := by
  unfold get
  split <;> rfl

@[simp] theorem lasts_put (c : Cache) (address : String) (info : AddressInfo) :
    (c.put address info).Lasts ↔ c.Lasts := by
  unfold put
  split <;> rfl

theorem peek?_forget (c : Cache) {address other : String} (h : other ≠ address) :
    (c.forget address).peek? other = c.peek? other :=
  congrArg (Option.map Prod.snd) (find?_others h c.entries)

end AccessLog.Enrich.Cache

namespace AccessLog.Service
open AccessLog.Enrich AccessLog.Store

/-- Whether an entry is dropped at a turn because its time is over. -/
def Turn.drops (address : String) : Turn → Bool
  | .event e _ =>
    match e with
    | .forget other => other = address
    | .call _ | .task _ | .worker | .settle _ | .stop => false
  | .lookup _ => false

namespace Round

/-- What a round does to the cache. -/
def Caches (before after : Cache) : Round → Prop
  | known address => (before.peek? address).isSome = true ∧ after = (before.get address).2
  | lookedUp address result => after = before.put address (result.settled address)

/-- The cache says of the address what the round has found. -/
def HeldIn (c : Cache) : Round → Prop
  | known address => (c.peek? address).isSome = true
  | lookedUp address result => c.peek? address = some (result.settled address)

theorem Caches.heldIn {round : Round} {before after : Cache} (h : round.Caches before after)
    (hlasts : before.Lasts) : round.HeldIn after := by
  cases round with
  | known address =>
    obtain ⟨hlive, rfl⟩ := h
    rw [HeldIn, Cache.peek?_get]
    exact hlive
  | lookedUp address result =>
    rw [Caches] at h
    rw [HeldIn, h]
    exact Cache.peek?_put_self hlasts.1 hlasts.2 _

theorem heldIn_congr {round : Round} {c c' : Cache}
    (h : c'.peek? round.address = c.peek? round.address) : round.HeldIn c' ↔ round.HeldIn c := by
  cases round <;> simp only [address] at h <;> rw [HeldIn, HeldIn, h]

/-- A row of rounds can be told from what has been done in it. -/
theorem flatMap_deeds_inj {rounds rounds' : List Round}
    (h : rounds.flatMap deeds = rounds'.flatMap deeds) : rounds = rounds' := by
  induction rounds generalizing rounds' with
  | nil =>
    cases rounds' with
    | nil => rfl
    | cons round' _ => cases round' <;> cases h
  | cons round rest ih =>
    cases rounds' with
    | nil => cases round <;> cases h
    | cons round' rest' =>
      obtain ⟨rfl, hrest⟩ : round = round' ∧ rest.flatMap deeds = rest'.flatMap deeds := by
        cases round <;> cases round' <;> simp_all [deeds]
      rw [ih hrest]

end Round

namespace Dialogue
variable {σ : Type} [SharedStore σ] {p : BackoffPolicy} {s s' : Dialogue σ} {t : Turn}
  {d : Option Deed} {turns : List Turn} {round : Round}

/-- At some turn of a run this round has done to the cache what it has to do. Nothing has been taken
since, and what the cache says of the address has stayed, unless its entry has been dropped. -/
def HasCached (p : BackoffPolicy) (s : Dialogue σ) (turns : List Turn) (round : Round) : Prop :=
  ∃ past t rest, turns = past ++ t :: rest ∧
    round.Caches (s.play p past).cache (s.play p (past ++ [t])).cache ∧
    (∀ address, .taken address ∉ (s.play p (past ++ [t])).deeds p rest) ∧
    ((∀ u ∈ rest, u.drops round.address = false) →
      (s.play p turns).cache.peek? round.address =
        (s.play p (past ++ [t])).cache.peek? round.address)

theorem play_concat (p : BackoffPolicy) (s : Dialogue σ) (turns : List Turn) (t : Turn) :
    s.play p (turns ++ [t]) = (s.play p turns).turn p t := play_append p s turns [t]

theorem deeds_concat (p : BackoffPolicy) (s : Dialogue σ) (turns : List Turn) (t : Turn) :
    s.deeds p (turns ++ [t]) = s.deeds p turns ++ ((s.play p turns).deed? p t).toList := by
  rw [deeds_append]
  exact congrArg _ (List.append_nil _)

theorem Change.lasts (h : s.Change p t d s') : s'.cache.Lasts ↔ s.cache.Lasts := by
  cases h with
  | call | stop | forget | lookup | none => rfl
  | @task _ _ _ _ _ service stands moved =>
    show service.pipeline.cache.Lasts ↔ _
    obtain hsame | ⟨address, hget⟩ := moved.cache
    · rw [hsame]
      rfl
    · rw [hget, Cache.lasts_get]
      rfl
  | worker made =>
    obtain ⟨⟨store, pipeline, eagerTopN⟩, worker, sessions⟩ := s
    cases made with
    | stop | giveUp | take | retake | release => rfl
    | hit | miss => exact Cache.lasts_get _ _
    | record => exact Cache.lasts_put _ _ _

theorem lasts_play (p : BackoffPolicy) (s : Dialogue σ) (turns : List Turn) :
    (s.play p turns).cache.Lasts ↔ s.cache.Lasts :=
  play_induction (P := fun _ s' => s'.cache.Lasts ↔ s.cache.Lasts)
    (fun _ _ _ _ _ _ hchange h => hchange.lasts.trans h) Iff.rfl

/-- What the cache says of an address stays at every turn but one of the worker, unless the entry is
dropped. -/
theorem Change.peek?_eq (h : s.Change p t d s') (hworker : t.isWorker = false) {address : String}
    (hdrops : t.drops address = false) : s'.cache.peek? address = s.cache.peek? address := by
  cases h with
  | worker => cases hworker
  | call | stop | lookup | none => rfl
  | forget => exact Cache.peek?_forget _ fun heq => by simp [Turn.drops, heq] at hdrops
  | @task _ _ _ _ _ service stands moved =>
    show service.pipeline.cache.peek? address = _
    obtain hsame | ⟨other, hget⟩ := moved.cache
    · rw [hsame]
      rfl
    · rw [hget, Cache.peek?_get]
      rfl

theorem HasCached.heldIn (h : s.HasCached p turns round) (hlasts : s.cache.Lasts)
    (hdrops : ∀ t ∈ turns, t.drops round.address = false) :
    round.HeldIn (s.play p turns).cache := by
  obtain ⟨past, t, rest, rfl, hcaches, -, hstays⟩ := h
  rw [Round.heldIn_congr (hstays fun u hu => hdrops u (by simp [hu]))]
  exact hcaches.heldIn ((lasts_play p s past).2 hlasts)

/-! ## Every round of a run -/

/-- What the worker has done are these rounds and the beginning of one more, and the last round that
has got past the cache has done what it has to do there. -/
structure Seen (p : BackoffPolicy) (s : Dialogue σ) (turns : List Turn) (rounds : List Round)
    (opened : List Deed) : Prop where
  worked : workOf (s.deeds p turns) = rounds.flatMap Round.deeds ++ opened
  underway : Underway (s.play p turns).worker.phase opened
  closed : opened = [] → ∀ round ∈ rounds.getLast?, s.HasCached p turns round
  past : ∀ round : Round, opened ++ [.completed round.address] = round.deeds →
    s.HasCached p turns round

section Concat
variable {now next : Dialogue σ} {rounds : List Round} {opened : List Deed}
  (hnow : s.play p turns = now) (hdeed : now.deed? p t = d) (hnext : now.turn p t = next)
include hnow hdeed hnext

/-- At one more turn nothing is taken, and nothing is put into the cache. -/
theorem HasCached.concat (h : s.HasCached p turns round)
    (htaken : ∀ address, d ≠ some (.taken address))
    (hpeek : t.drops round.address = false →
      next.cache.peek? round.address = now.cache.peek? round.address) :
    s.HasCached p (turns ++ [t]) round := by
  obtain ⟨past, u, rest, rfl, hcaches, hnone, hstays⟩ := h
  have hplay : (s.play p (past ++ [u])).play p rest = now := by
    rw [← play_append, List.append_assoc, List.singleton_append, hnow]
  refine ⟨past, u, rest ++ [t], by simp, hcaches, ?_, ?_⟩
  · intro address hmem
    rw [deeds_concat, hplay, hdeed, List.mem_append, Option.mem_toList] at hmem
    exact hmem.elim (hnone address) (htaken address)
  · intro hdrops
    rw [play_concat, hnow, hnext, hpeek (hdrops t (by simp)), ← hnow]
    exact hstays fun v hv => hdrops v (List.mem_append_left _ hv)

omit hdeed in
/-- This turn does to the cache what the round has to do. -/
theorem hasCached_concat (h : round.Caches now.cache next.cache) :
    s.HasCached p (turns ++ [t]) round := by
  refine ⟨turns, t, [], rfl, ?_, fun _ hmem => (List.not_mem_nil hmem).elim, fun _ => rfl⟩
  rw [play_concat, hnow, hnext]
  exact h

omit hnext in
theorem workOf_concat : workOf (s.deeds p (turns ++ [t])) =
    workOf (s.deeds p turns) ++ workOf d.toList := by
  rw [deeds_concat, hnow, hdeed, workOf_append]

/-- The worker goes no further with its round. -/
theorem Seen.stay (h : s.Seen p turns rounds opened) (hwork : workOf d.toList = [])
    (hunderway : Underway next.worker.phase opened)
    (hpeek : ∀ address, t.drops address = false →
      next.cache.peek? address = now.cache.peek? address) :
    s.Seen p (turns ++ [t]) rounds opened where
  worked := by rw [workOf_concat hnow hdeed, hwork, List.append_nil, h.worked]
  underway := by rw [play_concat, hnow, hnext]; exact hunderway
  closed hopened round hround := by
    refine (h.closed hopened round hround).concat hnow hdeed hnext ?_ (hpeek _)
    rintro address rfl
    cases hwork
  past round hround := by
    refine (h.past round hround).concat hnow hdeed hnext ?_ (hpeek _)
    rintro address rfl
    cases hwork

/-- The worker goes on with its round. -/
theorem Seen.go {done : Deed} (h : s.Seen p turns rounds opened) (hd : d = some done)
    (hwork : done.isWork = true) (hunderway : Underway next.worker.phase (opened ++ [done]))
    (hpast : ∀ round : Round, opened ++ [done, .completed round.address] = round.deeds →
      round.Caches now.cache next.cache) :
    s.Seen p (turns ++ [t]) rounds (opened ++ [done]) where
  worked := by
    subst hd
    rw [workOf_concat hnow hdeed, h.worked, workOf, Option.toList_some,
      List.filter_cons_of_pos hwork, List.filter_nil, List.append_assoc]
  underway := by rw [play_concat, hnow, hnext]; exact hunderway
  closed hopened := by simp at hopened
  past round hround := by
    refine hasCached_concat hnow hnext (hpast round ?_)
    rw [← hround, List.append_assoc]
    rfl

/-- The worker is through with its round. -/
theorem Seen.close (h : s.Seen p turns rounds opened) (round : Round)
    (hround : opened ++ [.completed round.address] = round.deeds)
    (hd : d = some (.completed round.address)) (hphase : next.worker.phase = .idle)
    (hcache : next.cache = now.cache) :
    s.Seen p (turns ++ [t]) (rounds ++ [round]) [] where
  worked := by
    subst hd
    rw [workOf_concat hnow hdeed, h.worked, List.append_assoc]
    show _ ++ (opened ++ [_]) = _
    rw [hround]
    simp
  underway := by rw [play_concat, hnow, hnext, hphase]; exact .idle
  closed _ last hlast := by
    obtain rfl : round = last := by simpa using hlast
    refine (h.past round hround).concat hnow hdeed hnext ?_ fun _ => by rw [hcache]
    rintro address rfl
    cases hd
  past last hlast := by cases last <;> cases hlast

/-- A step of the worker goes on with its round, opens one or closes one. -/
theorem Seen.step (h : s.Seen p turns rounds opened) {worker : Worker} {pipeline : Pipeline}
    (made : now.worker.Step now.service.pipeline worker pipeline)
    (hd : d = Deed.ofPhases? now.cache now.worker.phase worker.phase)
    (heq : next = ⟨{ now.service with pipeline }, worker, now.sessions⟩) :
    ∃ rounds opened, s.Seen p (turns ++ [t]) rounds opened := by
  have hunderway : Underway now.worker.phase opened := hnow ▸ h.underway
  obtain ⟨⟨store, before, eagerTopN⟩, held, sessions⟩ := now
  subst heq
  have htake (taken : TakeResult String) (hopened : opened = [])
      (hd : d = taken.value?.map .taken) (hphase : worker.phase = Worker.afterTake taken)
      (hcache : pipeline.cache = before.cache) :
      ∃ rounds opened, s.Seen p (turns ++ [t]) rounds opened := by
    subst hopened
    cases taken with
    | item address =>
      refine ⟨rounds, _, h.go hnow hdeed hnext hd rfl ?_ ?_⟩
      · show Underway worker.phase _
        rw [hphase]
        exact .taken
      · intro round hround
        cases round <;> cases hround
    | waiting ticket =>
      refine ⟨rounds, _, h.stay hnow hdeed hnext (by rw [hd]; rfl) ?_ fun address _ => ?_⟩
      · show Underway worker.phase _
        rw [hphase]
        exact .waiting
      · exact congrArg (Cache.peek? · address) hcache
  cases made with
  | stop | giveUp =>
    cases hunderway
    exact ⟨rounds, _, h.stay hnow hdeed hnext (by rw [hd]; rfl) .stopped fun _ _ => rfl⟩
  | take =>
    cases hunderway
    exact htake before.queue.begin.1 rfl (hd.trans (Deed.ofPhases?_idle _ _)) rfl rfl
  | @retake _ ticket notified =>
    cases hunderway
    exact htake (before.queue.poll ticket).1 rfl (hd.trans (Deed.ofPhases?_waiting _ _ _)) rfl rfl
  | @hit _ address _ info found =>
    rw [Cache.get_fst] at found
    have hlive : before.cache.holds address = true := by rw [Cache.holds, found, Option.isSome_some]
    have hchecked : d = some (.checked address true) :=
      hd.trans (congrArg (fun live => some (Deed.checked address live)) hlive)
    cases hunderway
    refine ⟨rounds, _, h.go hnow hdeed hnext hchecked rfl .known ?_⟩
    intro round hround
    cases round with
    | known other =>
      cases hround
      exact ⟨hlive, rfl⟩
    | lookedUp => cases hround
  | @miss _ address _ missing =>
    rw [Cache.get_fst] at missing
    have hdead : before.cache.holds address = false := by
      rw [Cache.holds, missing, Option.isSome_none]
    have hchecked : d = some (.checked address false) :=
      hd.trans (congrArg (fun live => some (Deed.checked address live)) hdead)
    cases hunderway
    refine ⟨rounds, _, h.go hnow hdeed hnext hchecked rfl .resolving ?_⟩
    intro round hround
    cases round <;> cases hround
  | @record _ address info _ =>
    cases hunderway
    refine ⟨rounds, _, h.go hnow hdeed hnext hd rfl .cached ?_⟩
    intro round hround
    cases round with
    | known => cases hround
    | lookedUp other result =>
      cases hround
      rfl
  | @release _ address _ =>
    cases hunderway with
    | known =>
      exact ⟨_, _, h.close hnow hdeed hnext (.known address) rfl hd rfl rfl⟩
    | @cached _ result =>
      exact ⟨_, _, h.close hnow hdeed hnext (.lookedUp address result) rfl hd rfl rfl⟩

theorem Seen.change (h : s.Seen p turns rounds opened) (hchange : now.Change p t d next) :
    ∃ rounds opened, s.Seen p (turns ++ [t]) rounds opened := by
  have hunderway : Underway now.worker.phase opened := hnow ▸ h.underway
  have hpeek (hworker : t.isWorker = false) (address : String) (hdrops : t.drops address = false) :
      next.cache.peek? address = now.cache.peek? address := hchange.peek?_eq hworker hdrops
  cases hchange with
  | call | stop | forget =>
    exact ⟨rounds, opened, h.stay hnow hdeed hnext rfl hunderway (hpeek rfl)⟩
  | none => exact ⟨rounds, opened, h.stay hnow hdeed hnext rfl hunderway fun _ _ => rfl⟩
  | @task _ _ _ stage stage' service stands moved =>
    have hwork : workOf (Deed.ofClaims? stage.claimed? stage'.claimed?).toList = [] := by
      cases stage.claimed? <;> cases stage'.claimed? <;> rfl
    exact ⟨rounds, opened, h.stay hnow hdeed hnext hwork hunderway (hpeek rfl)⟩
  | worker made => exact h.step hnow hdeed hnext made rfl rfl
  | @lookup outcomes address resolving =>
    rw [resolving] at hunderway
    cases hunderway
    refine ⟨rounds, _, h.go hnow hdeed hnext rfl rfl .resolved ?_⟩
    intro round hround
    cases round <;> cases hround

end Concat

/-- At every moment of a run the last round that has got past the cache has been there. -/
theorem seen_play (p : BackoffPolicy) {s : Dialogue σ} (h : s.worker.phase = .idle)
    (turns : List Turn) : ∃ rounds opened, s.Seen p turns rounds opened := by
  induction turns using List.reverseRecOn with
  | nil =>
    refine ⟨[], [], rfl, ?_, fun _ _ hlast => (Option.not_mem_none _ hlast).elim, ?_⟩
    · show Underway s.worker.phase []
      rw [h]
      exact .idle
    · intro round hround
      cases round <;> cases hround
  | append_singleton turns t ih =>
    obtain ⟨rounds, opened, hseen⟩ := ih
    exact hseen.change rfl rfl rfl (change_turn p _ t)

end Dialogue

end AccessLog.Service
