import AccessLog.Proofs.RoundsInCache
import AccessLog.Store.Memory

/-! # Shutdown

A worker that has been told to stop finishes the round it is on and takes no more, whenever it is
told. What that round has found is in the cache then. What the worker leaves is what had been offered
and not taken: every address that is still queued is pending, and nothing has been done about it
since its offer was accepted. -/

namespace AccessLog.Enrich

/-- How many steps a worker that has been told to stop has still to make. -/
def Worker.toStop (w : Worker) : Nat := w.phase.stepsLeft + if w.phase = .stopped then 0 else 1

theorem Worker.phase_of_toStop {w : Worker} (h : w.toStop = 0) : w.phase = .stopped := by
  by_contra hphase
  rw [toStop, if_neg hphase] at h
  cases h

end AccessLog.Enrich

namespace AccessLog.Service
open AccessLog.Enrich AccessLog.Store

/-- A worker that has been told to stop takes nothing, and every step brings it nearer its end. -/
theorem toStop_step {w w' : Worker} {p p' : Pipeline} (h : w.Step p w' p')
    (hstop : w.stopping = true) :
    w'.stopping = true ∧ w'.toStop < w.toStop ∧
      ∀ address, Deed.ofPhases? p.cache w.phase w'.phase ≠ some (.taken address) := by
  cases h with
  | take | retake => cases hstop
  | stop | giveUp | hit | miss | record | release =>
    exact ⟨hstop, by simp [Worker.toStop, Phase.stepsLeft], by simp [Deed.ofPhases?]⟩

namespace Dialogue
variable {σ : Type} [SharedStore σ] {p : BackoffPolicy} {s s' : Dialogue σ} {t : Turn}
  {d : Option Deed}

theorem Change.toStop (h : s.Change p t d s') (hstop : s.worker.stopping = true) :
    s'.worker.stopping = true ∧ (∀ address, d ≠ some (.taken address)) ∧
      (s'.worker.toStop < s.worker.toStop ∨
        s'.worker.toStop = s.worker.toStop ∧ s'.resolving? = s.resolving?) := by
  cases h with
  | call | forget | none => exact ⟨hstop, by simp, .inr ⟨rfl, rfl⟩⟩
  | stop => exact ⟨rfl, by simp, .inr ⟨rfl, rfl⟩⟩
  | task =>
    refine ⟨hstop, ?_, .inr ⟨rfl, rfl⟩⟩
    intro address htaken
    obtain ⟨-, _, -, heq⟩ := Deed.ofClaims?_eq_some.1 htaken
    cases heq
  | worker made =>
    obtain ⟨hstill, hless, htakes⟩ := toStop_step made hstop
    exact ⟨hstill, htakes, .inl hless⟩
  | lookup resolving =>
    exact ⟨hstop, by simp, .inl (by simp [Worker.toStop, Phase.stepsLeft, resolving])⟩

/-- From the signal on nothing is taken. -/
theorem not_taken_of_stopping (p : BackoffPolicy) {s : Dialogue σ} (h : s.worker.stopping = true)
    (turns : List Turn) : takesOf (s.deeds p turns) = [] := by
  refine (play_induction (P := fun deeds s => s.worker.stopping = true ∧ takesOf deeds = [])
    ?_ ⟨h, rfl⟩).2
  rintro past s t d s' - hchange ⟨hstop, htakes⟩
  obtain ⟨hstop', hnot, -⟩ := hchange.toStop hstop
  refine ⟨hstop', ?_⟩
  rw [takesOf_append, htakes]
  rcases d with _ | d
  · rfl
  · cases d with
    | taken address => exact absurd rfl (hnot address)
    | offered | checked | settled | cached | completed => rfl

theorem progress_toStop (p : BackoffPolicy) :
    Progress p (fun (s : Dialogue σ) _ => s.worker.stopping = true) fun s => s.worker.toStop where
  keeps h := ((change_turn p _ _).toStop h).1
  less h := ((change_turn p _ _).toStop h).2.2
  ready {s _} h ahead free hstep := by
    rcases Worker.step?_eq_none hstep with ⟨address, hphase⟩ | hphase | ⟨ticket, -, hnot, -⟩
    · rw [resolving?_eq_some.2 hphase] at free
      cases free
    · exact ahead (by simp [Worker.toStop, Phase.stepsLeft, hphase])
    · rw [h] at hnot
      cases hnot
  step h _ made := (toStop_step made h).2.1
  lookup busy := by simp [Worker.toStop, Phase.stepsLeft, busy]

/-- A worker that has been told to stop has finished the round it was on, and no other, once it has
stopped. That round has done to the cache what it had to do. -/
theorem last_round (p : BackoffPolicy) {s : Dialogue σ} {before after : List Turn}
    (hstart : s.worker.phase = .idle) (hstop : (s.play p before).worker.stopping = true)
    (hstopped : (s.play p (before ++ after)).worker.phase = .stopped) :
    ∃ (rounds : List Round) (opened : List Deed) (last : List Round),
      workOf (s.deeds p before) = rounds.flatMap Round.deeds ++ opened ∧
      opened ++ workOf ((s.play p before).deeds p after) = last.flatMap Round.deeds ∧
      last.map Round.address = (s.play p before).worker.held?.toList ∧
      ∀ round ∈ last, s.HasCached p (before ++ after) round := by
  obtain ⟨rounds, opened, hseen⟩ := seen_play p hstart before
  obtain ⟨all, rest, hall⟩ := seen_play p hstart (before ++ after)
  obtain ⟨last, hworked⟩ := worked_play p hseen.underway after
  have htakes := hworked.takes
  obtain ⟨open', hlast, hover⟩ := hworked
  rw [← play_append, hstopped] at hover
  cases hover
  have hunderway := hall.underway
  rw [hstopped] at hunderway
  cases hunderway
  rw [workOf_append, hseen.underway.work, List.append_nil] at hlast
  have haddress : last.map Round.address = (s.play p before).worker.held?.toList := by
    have hnone : (s.play p (before ++ after)).worker.held? = none := by
      rw [Worker.held?, hstopped]
    rw [takesOf_append, not_taken_of_stopping p hstop, List.append_nil, hseen.underway.takes,
      ← play_append, hnone] at htakes
    simpa using htakes.symm
  refine ⟨rounds, opened, last, hseen.worked, hlast, haddress, fun round hround => ?_⟩
  have hrounds : all = rounds ++ last := by
    apply Round.flatMap_deeds_inj
    have hdeeds := hall.worked
    rw [deeds_append, workOf_append, hseen.worked, List.append_nil, List.append_assoc,
      hlast] at hdeeds
    rw [← hdeeds, List.flatMap_append]
  -- the worker holds one address at most, so there is one such round
  obtain rfl : last = [round] := by
    cases hheld : (s.play p before).worker.held? <;> rw [hheld] at haddress <;>
      cases last <;> simp_all
  exact hall.closed rfl round (by simp [hrounds])

end Dialogue

/-! ## What is left -/

/-- What has been done since an address was last offered, the latest first. -/
def sinceOffer (address : String) (deeds : List Deed) : List Deed :=
  deeds.reverse.takeWhile (· ≠ .offered address)

theorem sinceOffer_concat_self (address : String) (deeds : List Deed) :
    sinceOffer address (deeds ++ [.offered address]) = [] := by
  simp [sinceOffer]

theorem sinceOffer_concat {address : String} {d : Deed} (deeds : List Deed)
    (h : d ≠ .offered address) :
    sinceOffer address (deeds ++ [d]) = d :: sinceOffer address deeds := by
  simp [sinceOffer, h]

/-- What the worker holds is neither queued nor about to be. -/
theorem Balanced.apart {q : WorkQueue String} {held : Option String} {claimed : List String}
    {address : String} (h : Balanced q held claimed) (hheld : held = some address) :
    address ∉ q.items ++ claimed := by
  obtain ⟨hnodup, hperm⟩ := h
  rw [hheld, Option.toList_some, List.append_assoc] at hperm
  have hmiddle : (q.items ++ ([address] ++ claimed)).Perm (address :: (q.items ++ claimed)) :=
    List.perm_middle
  exact (List.nodup_cons.1 ((hperm.trans hmiddle).nodup_iff.1 hnodup)).1

/-- What the worker does it does to the address that it holds, before or after. -/
theorem held_of_step {w w' : Worker} {p p' : Pipeline} (h : w.Step p w' p') {d : Deed}
    (hd : Deed.ofPhases? p.cache w.phase w'.phase = some d) :
    w.held? = some d.address ∨ w'.held? = some d.address := by
  cases h with
  | stop | giveUp => cases hd
  | take =>
    rw [Deed.ofPhases?_idle] at hd
    obtain ⟨address, haddress, rfl⟩ := Option.map_eq_some_iff.1 hd
    exact .inr ((Worker.held?_afterTake _ _).trans haddress)
  | retake =>
    rw [Deed.ofPhases?_waiting] at hd
    obtain ⟨address, haddress, rfl⟩ := Option.map_eq_some_iff.1 hd
    exact .inr ((Worker.held?_afterTake _ _).trans haddress)
  | hit | miss | record | release =>
    cases hd
    exact .inl rfl

/-- Nothing has been done, since its last offer, about an address that is queued or about to be. -/
def Dialogue.Untouched {σ : Type} (s : Dialogue σ) (deeds : List Deed) : Prop :=
  ∀ address ∈ s.queue.items ++ s.claimed, ∀ d ∈ sinceOffer address deeds, d.address ≠ address

namespace Dialogue
variable {σ : Type} [SharedStore σ] {p : BackoffPolicy} {s s' : Dialogue σ} {t : Turn}
  {d : Option Deed}

theorem Change.of_held {d : Deed} (h : s.Change p t (some d) s') :
    (∃ address, d = .offered address) ∨ s.worker.held? = some d.address ∨
      s'.worker.held? = some d.address := by
  generalize hd : some d = done at h
  cases h with
  | call | stop | forget | none => cases hd
  | task =>
    obtain ⟨-, address, -, heq⟩ := Deed.ofClaims?_eq_some.1 hd.symm
    exact .inl ⟨address, heq⟩
  | worker made => exact .inr (held_of_step made hd.symm)
  | lookup resolving =>
    cases hd
    exact .inr (.inl (by rw [Worker.held?, resolving]; rfl))

/-- What is queued or about to be was so before, or has just been offered. -/
theorem Change.queued (h : s.Change p t d s') {address : String}
    (hmem : address ∈ s'.queue.items ++ s'.claimed) :
    address ∈ s.queue.items ++ s.claimed ∨ d = some (.offered address) := by
  rcases List.mem_append.1 hmem with hmem | hmem
  · obtain ⟨pushed, hitems, hpushed⟩ := h.takes
    have hbefore : address ∈ s.queue.items ++ pushed := by
      rw [← hitems]
      exact List.mem_append_right _ hmem
    exact .inl (List.mem_append.2 ((List.mem_append.1 hbefore).imp_right (hpushed address)))
  · exact (h.claims hmem).imp_left (List.mem_append_right _)

theorem Change.untouched {deeds : List Deed} (h : s.Change p t d s') (hbalanced : s.IsBalanced)
    (huntouched : s.Untouched deeds) : s'.Untouched (deeds ++ d.toList) := by
  intro address hmem
  have hbefore := h.queued hmem
  cases d with
  | none =>
    rw [Option.toList_none, List.append_nil]
    exact huntouched address (hbefore.resolve_right (by simp))
  | some d =>
    by_cases hoffered : d = .offered address
    · rw [hoffered, Option.toList_some, sinceOffer_concat_self]
      simp
    · have hqueued := hbefore.resolve_right fun heq => hoffered (Option.some.inj heq)
      rw [Option.toList_some, sinceOffer_concat _ hoffered]
      refine List.forall_mem_cons.2 ⟨?_, huntouched address hqueued⟩
      intro haddress
      subst haddress
      rcases h.of_held with ⟨other, rfl⟩ | hheld | hheld
      · exact hoffered rfl
      · exact hbalanced.apart hheld hqueued
      · exact (h.isBalanced hbalanced).apart hheld hmem

theorem untouched_play (p : BackoffPolicy) {s : Dialogue σ} (h : s.IsBalanced)
    (turns : List Turn) : (s.play p turns).Untouched (s.deeds p turns) := by
  refine (play_induction (P := fun deeds s => s.IsBalanced ∧ s.Untouched deeds)
    ?_ ⟨h, fun _ _ _ hd => nomatch hd⟩).2
  rintro past s t d s' - hchange ⟨hbalanced, huntouched⟩
  exact ⟨hchange.isBalanced hbalanced, hchange.untouched hbalanced huntouched⟩

end Dialogue

/-- Whenever the worker is told to stop, it takes nothing more. Once it gets its turns it stops, and
then it has finished every round: the one it was on when it was told, and no other since. That round
has found its address in the cache or has put there what the lookup has come to, and there it is
unless it has been dropped. What is pending is what is queued and what calls are about to queue, and
nothing has been done about a queued address since its last offer was accepted. -/
theorem shutdown_keeps_work {σ : Type} [SharedStore σ] (p : BackoffPolicy) (s : Dialogue σ)
    (hstart : s.worker.phase = .idle) (hbalanced : s.IsBalanced) (before after : List Turn) :
    let told := s.play p (before ++ [.event .stop rfl])
    let turns := before ++ [.event .stop rfl] ++ after
    let final := s.play p turns
    (∀ address, .taken address ∉ told.deeds p after) ∧
    (Beats 5 after → final.worker.phase = .stopped) ∧
    (final.worker.phase = .stopped →
      (∃ (rounds : List Round) (opened : List Deed) (last : List Round),
        workOf (s.deeds p before) = rounds.flatMap Round.deeds ++ opened ∧
        opened ++ workOf (told.deeds p after) = last.flatMap Round.deeds ∧
        last.map Round.address = told.worker.held?.toList ∧
        ∀ round ∈ last, s.HasCached p turns round ∧
          (s.cache.Lasts → (∀ t ∈ turns, t.drops round.address = false) →
            round.HeldIn final.cache)) ∧
      final.queue.pending.Perm (final.queue.items ++ final.claimed) ∧
      (final.claimed = [] →
        ∀ address, address ∈ final.queue.pending ↔ address ∈ final.queue.items) ∧
      ∀ address ∈ final.queue.items, address ∈ final.queue.pending ∧
        ∀ d ∈ sinceOffer address (s.deeds p turns), d.address ≠ address) := by
  intro told turns final
  have htold : told = (s.play p before).next .stop := Dialogue.play_append p s before _
  have hstop : told.worker.stopping = true := by
    rw [htold]
    rfl
  have hfinal : final = told.play p after := Dialogue.play_append p s _ after
  refine ⟨?_, ?_, ?_⟩
  · intro address htaken
    have hmem : address ∈ takesOf (told.deeds p after) :=
      List.mem_filterMap.2 ⟨_, htaken, rfl⟩
    rw [Dialogue.not_taken_of_stopping p hstop after] at hmem
    cases hmem
  · intro hbeats
    have hleft := (Dialogue.progress_toStop p).left_le hstop hbeats
    have hfive : told.worker.toStop ≤ 5 := by
      unfold Worker.toStop Phase.stepsLeft
      split <;> split <;> omega
    rw [← hfinal] at hleft
    exact Worker.phase_of_toStop (by omega)
  · intro hstopped
    have hend : final.IsBalanced := Dialogue.isBalanced_play p hbalanced turns
    have hpending : final.queue.pending.Perm (final.queue.items ++ final.claimed) := by
      have hperm := hend.2
      rw [Worker.held?, hstopped] at hperm
      simpa using hperm
    refine ⟨?_, hpending, ?_, ?_⟩
    · obtain ⟨rounds, opened, last, hdeeds, hlast, haddress, hcached⟩ :=
        Dialogue.last_round p hstart hstop hstopped
      rw [Dialogue.deeds_append, workOf_append] at hdeeds
      refine ⟨rounds, opened, last, (List.append_nil _).symm.trans hdeeds, hlast, haddress,
        fun round hround => ⟨hcached round hround, fun hlasts hdrops => ?_⟩⟩
      exact (hcached round hround).heldIn hlasts hdrops
    · intro hclaimed address
      rw [hpending.mem_iff, hclaimed, List.append_nil]
    · intro address hqueued
      refine ⟨hpending.mem_iff.2 (List.mem_append_left _ hqueued), ?_⟩
      exact Dialogue.untouched_play p hbalanced turns address (List.mem_append_left _ hqueued)

/-- Two addresses have been queued, and a lookup of the first is under way. -/
def inLookup : List Turn :=
  .event (.call (.readAll ["8.8.8.8", "9.9.9.9"])) (.refl false) ::
    List.replicate 6 (.event (.task 0) (.refl false)) ++
    List.replicate 2 (.event .worker (.refl false))

/-- The worker has five turns, and lookups break down. -/
def breakdowns : List Turn := (List.replicate 5 fun _ => .crashed "lookup exploded").flatMap beat

theorem shutdown_keeps_work_inLookup :
    let s := Dialogue.start MemoryStore.empty .standard 10
    let told := s.play .standard (inLookup ++ [.event .stop rfl])
    let turns := inLookup ++ [.event .stop rfl] ++ breakdowns
    let final := s.play .standard turns
    s.worker.phase = .idle ∧ s.IsBalanced ∧ told.worker.held? = some "8.8.8.8" ∧
      told.cache.peek? "8.8.8.8" = none ∧ Beats 5 breakdowns ∧ final.worker.phase = .stopped ∧
      (.taken "9.9.9.9" ∉ told.deeds .standard breakdowns) ∧
      (∃ opened round, opened ++ workOf (told.deeds .standard breakdowns) = Round.deeds round ∧
        round.address = "8.8.8.8" ∧ s.HasCached .standard turns round) ∧
      final.cache.peek? "8.8.8.8" = some (.unknown "8.8.8.8") ∧
      final.queue.items = ["9.9.9.9"] ∧
      (∀ address, address ∈ final.queue.pending ↔ address ∈ final.queue.items) ∧
      ∀ d ∈ sinceOffer "9.9.9.9" (s.deeds .standard turns), d.address ≠ "9.9.9.9" := by
  have hbalanced := Dialogue.isBalanced_start MemoryStore.empty .standard 10
  obtain ⟨htaken, hstops, hleft⟩ :=
    shutdown_keeps_work .standard _ rfl hbalanced inLookup breakdowns
  have hbeats : Beats 5 breakdowns := beats_flatMap _
  have hstopped := hstops hbeats
  obtain ⟨⟨_, opened, last, -, hlast, haddress, hcached⟩, -, hpending, hqueued⟩ := hleft hstopped
  dsimp only
  refine ⟨rfl, hbalanced, ?held, ?missing, hbeats, hstopped, htaken _, ?round, ?cached, ?items,
    hpending ?claimed, (hqueued _ ?queued).2⟩
  case held => decide +kernel
  case missing => decide +kernel
  case items => decide +kernel
  case claimed => decide +kernel
  case queued => decide +kernel
  case cached => decide +kernel
  case round =>
    have hone : last.map Round.address = ["8.8.8.8"] := haddress.trans (by decide +kernel)
    obtain ⟨round, rfl, hround⟩ := List.map_eq_singleton_iff.1 hone
    exact ⟨opened, round, hlast.trans (by simp), hround, (hcached round (by simp)).1⟩

end AccessLog.Service
