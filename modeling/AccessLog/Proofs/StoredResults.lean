import AccessLog.Proofs.DrawnIdentities
import AccessLog.Service.Answer
import Mathlib.Data.List.Infix

/-! # What has been stored stays

Once an ingest has come back, a query for its identity finds the analysis of its batch at any later
time. The result is made of nothing but the analysis that was found and of what is known about its
ranked addresses, so it reports the same statistics every time, and they agree with what the client
was told when the batch was taken in. -/

namespace AccessLog

def Json.members : Json → List (String × Json)
  | .object members => members
  | _ => []

theorem Json.members_record_subset {fields fields' : List (String × Json)}
    (h : fields ⊆ fields') : (Json.record fields).members ⊆ (Json.record fields').members :=
  List.map_subset _ h

end AccessLog

namespace AccessLog.Service
open AccessLog.Enrich AccessLog.Log AccessLog.Stats AccessLog.Store AccessLog.Text

/-! ## Reports -/

/-- The result has the statistics of an analysis, with rankings of `topN` entries; what it tells
about addresses is left open. -/
structure AnalysisResult.Reports (r : AnalysisResult) (id : UInt64) (a : Analysis) (topN : UInt64) :
    Prop where
  id : r.id = id
  createdAt : r.createdAt = a.createdAt
  totalRequests : r.totalRequests = a.totalRequests
  distribution : r.distribution = a.statuses.distribution
  topPaths : r.topPaths = a.paths.top topN.toNat
  topStatusCodes : r.topStatusCodes = a.statuses.top topN.toNat
  topAddresses : r.topAddresses.map (fun x => (x.address, x.count, x.percentage)) =
    (a.addresses.top topN.toNat).map fun item => (item.value, item.count, item.percentage)
  failureCount : r.failureCount = a.failures.total
  failureSamples : r.failureSamples = a.failures.samples

/-- What the members of a summary are called. -/
def summaryNames : List String :=
  ["analysis_id", "created_at", "total_requests", "status_distribution", "parse_error_count",
    "parse_error_samples"]

/-- The summary has its six members, and what it tells stands in the answer as well. -/
structure AnalysisResult.AgreesWith (r : AnalysisResult) (summary : Json) : Prop where
  named : summary.members.map Prod.fst = summaryNames
  told : ∀ member ∈ summary.members, member ∈ r.toResponse.members

theorem reports_of (id given : UInt64) (a : Analysis) (topN : UInt64)
    (infos : List (String × AddressInfo)) :
    (AnalysisResult.of id (a.withId given) topN infos).Reports id a topN where
  id := rfl
  createdAt := rfl
  totalRequests := rfl
  distribution := rfl
  topPaths := rfl
  topStatusCodes := rfl
  topAddresses := by simp [AnalysisResult.of, pairWith, Analysis.withId]
  failureCount := rfl
  failureSamples := rfl

theorem agreesWith_summary (id : UInt64) (a : Analysis) (topN : UInt64)
    (infos : List (String × AddressInfo)) :
    (AnalysisResult.of id a topN infos).AgreesWith (summary id a) where
  named := by
    show summaryNames.map Json.escape = summaryNames
    decide
  told := by
    refine fun member hmember => Json.members_record_subset ?_ hmember
    -- the answer has the three rankings between the distribution and the failures
    exact List.Sublist.subset (.cons_cons _ <| .cons_cons _ <| .cons_cons _ <| .cons_cons _ <|
      .cons _ <| .cons _ <| .cons _ <| .refl _)

/-! ## Ingests -/

/-- How the ingests have fared, in view of the identities that were drawn. -/
structure Numbered (draws : List (Nat × UInt64)) (sessions : List Session) : Prop where
  /-- The identities are 1, 2, 3 and so on, in the order of the draws. -/
  ascending : draws.map (fun d => d.2.toNat) = List.range' 1 draws.length
  /-- No two calls have drawn the same identity. -/
  distinct : ∀ number other id, (number, id) ∈ draws → (other, id) ∈ draws → number = other
  /-- No call has drawn twice. -/
  once : ∀ number id other, (number, id) ∈ draws → (number, other) ∈ draws → id = other
  /-- What draws is an ingest whose batch can be aggregated. -/
  drawn : ∀ number id, (number, id) ∈ draws → ∃ createdAt reads a stage,
    sessions[number]? = some ⟨.ingest createdAt reads, stage⟩ ∧ aggregate createdAt reads = .ok a
  /-- A batch that can be aggregated is accepted, under the identity that its ingest has drawn. -/
  accepted : ∀ number createdAt reads a reply,
    sessions[number]? = some ⟨.ingest createdAt reads, .done reply⟩ →
    aggregate createdAt reads = .ok a →
    ∃ id, reply = .accepted (a.withId id) ∧ (number, id) ∈ draws
  /-- A batch that cannot be aggregated is refused, and draws nothing. -/
  refused : ∀ number createdAt reads fault stage,
    sessions[number]? = some ⟨.ingest createdAt reads, stage⟩ →
    aggregate createdAt reads = .error fault →
    stage = .done (.failed (batchFailure fault)) ∧ ∀ id, (number, id) ∉ draws

theorem Consistent.numbered {store : MemoryStore} {sessions : List Session}
    {draws : List (Nat × UInt64)} (h : Consistent store sessions draws) :
    Numbered draws sessions := by
  refine ⟨h.ascending, fun _ _ _ => h.distinct, ?_, ?_, ?_, ?_⟩
  · intro number id other hid hother
    obtain ⟨x, hx, hgiven⟩ := (h.drew number id).1 hid
    obtain ⟨y, hy, hgiven'⟩ := (h.drew number other).1 hother
    obtain rfl : x = y := Option.some.inj (hx.symm.trans hy)
    exact Option.some.inj (hgiven.symm.trans hgiven')
  · intro number id hid
    obtain ⟨⟨call, stage⟩, hx, hgiven⟩ := (h.drew number id).1 hid
    obtain ⟨createdAt, reads, a, rfl, hbatch⟩ := (h.stands number _ hx).batch_of_id hgiven
    exact ⟨createdAt, reads, a, stage, hx, hbatch⟩
  · intro number createdAt reads a reply hx hbatch
    cases h.stands number _ hx with
    | failed batch => rw [batch] at hbatch; cases hbatch
    | @accepted _ _ _ id batch kept =>
      obtain rfl := Except.ok.inj (batch.symm.trans hbatch)
      exact ⟨id, rfl, (h.drew number id).2 ⟨_, hx, rfl⟩⟩
    | read reads => cases reads
  · intro number createdAt reads fault stage hx hbatch
    have hstands := h.stands number _ hx
    refine ⟨hstands.refused hbatch, ?_⟩
    intro id hdraw
    obtain ⟨x, hsession, hgiven⟩ := (h.drew number id).1 hdraw
    cases hx.symm.trans hsession
    rw [hstands.refused hbatch] at hgiven
    cases hgiven

/-- What an ingest has come back with is the analysis of its batch, and it is stored. -/
theorem Consistent.stored {store : MemoryStore} {sessions : List Session}
    {draws : List (Nat × UInt64)} (h : Consistent store sessions draws) {number : Nat} {call : Call}
    {saved : Analysis} {id : UInt64}
    (hx : sessions[number]? = some ⟨call, .done (.accepted saved)⟩) (hid : saved.id = some id) :
    store.find id = some saved ∧ ∃ createdAt reads a, call = .ingest createdAt reads ∧
      aggregate createdAt reads = .ok a ∧ saved = a.withId id := by
  cases h.stands number _ hx with
  | @accepted createdAt reads a given batch kept =>
    obtain rfl : given = id := Option.some.inj hid
    exact ⟨kept, createdAt, reads, a, rfl, batch, rfl⟩

/-! ## Queries -/

/-- How many steps a query may still take, when that many addresses are ranked. -/
def Stage.left (ranked : Nat) : Stage → Nat
  | finding _ _ => 3 * ranked + 2
  | working _ t => t.left + 1
  | saving _ | keeping _ _ | done _ => 0

/-- Where a query can stand that is answered from `a`. -/
inductive Answering (id topN : UInt64) (a : Analysis) : Stage → Prop
  | finding : Answering id topN a (.finding id topN)
  | pairing {t} (light : t.IsLight) : Answering id topN a (.working (.result id topN a) t)
  | answered {infos} : Answering id topN a (.done (.result (AnalysisResult.of id a topN infos)))

namespace Answering
variable {id topN : UInt64} {a : Analysis} {stage stage' : Stage}

theorem step {s s' : Service MemoryStore} (h : Answering id topN a stage)
    (hstep : stage.Step s stage' s') (hfind : s.store.find id = some a) :
    Answering id topN a stage' ∧ stage'.left (rankedAddresses a topN).length <
      stage.left (rankedAddresses a topN).length := by
  cases hstep with
  | find =>
    cases h
    rw [hfind]
    refine ⟨.pairing (isLight_reads _ _), ?_⟩
    simp only [Stage.afterFind, Stage.left, left_reads]
    omega
  | work made =>
    cases h with
    | pairing light =>
      obtain ⟨hlight, -, hleft⟩ := made.light light
      exact ⟨.pairing hlight, Nat.succ_lt_succ hleft⟩
  | reply finished =>
    cases h with
    | pairing light => exact ⟨.answered, Nat.succ_pos _⟩
  | draw | bring | keep => cases h

theorem done_of_left (h : Answering id topN a stage) {ranked : Nat}
    (hleft : stage.left ranked = 0) :
    ∃ reply, stage = .done reply := by
  cases h with
  | finding => cases hleft
  | pairing light => cases hleft
  | answered => exact ⟨_, rfl⟩

end Answering

def turnsOf (number : Nat) (events : List Event) : Nat := events.countP (Event.isStepOf number)

namespace Traffic

theorem done_run {s : Traffic} {number : Nat} {call : Call} {reply : Reply}
    (hx : s.sessions[number]? = some ⟨call, .done reply⟩) (events : List Event) :
    (s.run events).sessions[number]? = some ⟨call, .done reply⟩ := by
  induction events generalizing s with
  | nil => exact hx
  | cons e rest ih =>
    rcases s.next_session e hx with ⟨_, hstep, -⟩ | ⟨-, hsame⟩
    · cases hstep
    · exact ih hsame

/-- While its analysis is there, a query comes nearer to its answer with each of its turns. -/
theorem answering_run {s : Traffic} {number : Nat} {call : Call} {stage : Stage} {id topN : UInt64}
    {a : Analysis} (events : List Event) (hx : s.sessions[number]? = some ⟨call, stage⟩)
    (h : Answering id topN a stage)
    (hkept : ∀ past, past <+: events → (s.run past).service.store.find id = some a) :
    ∃ stage', (s.run events).sessions[number]? = some ⟨call, stage'⟩ ∧
      Answering id topN a stage' ∧
      stage'.left (rankedAddresses a topN).length ≤
        stage.left (rankedAddresses a topN).length - turnsOf number events := by
  induction events generalizing s stage with
  | nil => exact ⟨stage, hx, h, Nat.le_refl _⟩
  | cons e rest ih =>
    have hrest : ∀ past, past <+: rest →
        ((s.next e).run past).service.store.find id = some a :=
      fun past hpast => hkept (e :: past) (List.cons_prefix_cons.2 ⟨rfl, hpast⟩)
    have hturns : turnsOf number (e :: rest) =
        turnsOf number rest + if e.isStepOf number then 1 else 0 := List.countP_cons
    rcases s.next_session e hx with ⟨stage₁, hstep, hnext⟩ | ⟨hover, hnext⟩
    · obtain ⟨hanswering, hless⟩ := h.step hstep (hkept [] (List.nil_prefix))
      obtain ⟨stage', hfinal, hlast, hleft⟩ := ih hnext hanswering hrest
      refine ⟨stage', hfinal, hlast, ?_⟩
      rw [hturns]
      split <;> omega
    · obtain ⟨stage', hfinal, hlast, hleft⟩ := ih hnext h hrest
      refine ⟨stage', hfinal, hlast, ?_⟩
      rw [hturns]
      split
      · rename_i hturn
        obtain ⟨reply, rfl⟩ := hover hturn
        exact hleft.trans (Nat.zero_sub _ ▸ Nat.zero_le _)
      · exact hleft

/-- Whatever happens after an ingest has come back, its analysis is there. -/
theorem find_run {cache : Cache} {eagerTopN : UInt64} {before later : List Event} {number : Nat}
    {call : Call} {saved : Analysis} {id : UInt64} (hfew : ingests (before ++ later) < UInt64.size)
    (hreturned : ((start cache eagerTopN).run before).sessions[number]? =
      some ⟨call, .done (.accepted saved)⟩) (hid : saved.id = some id) :
    ((start cache eagerTopN).run (before ++ later)).service.store.find id = some saved ∧
      ∃ createdAt reads a, call = .ingest createdAt reads ∧ aggregate createdAt reads = .ok a ∧
        saved = a.withId id := by
  have hstill : ((start cache eagerTopN).run (before ++ later)).sessions[number]? =
      some ⟨call, .done (.accepted saved)⟩ := by
    rw [run_append]
    exact done_run hreturned later
  exact (consistent_run cache eagerTopN (before ++ later) hfew).stored hstill hid

end Traffic

/-- Where a query stands that has had that many turns, and is answered from the batch `a`: what it
replies is a result that reports the batch and agrees with the summary of what was saved, and after
enough turns it does reply. -/
def Answers (id topN : UInt64) (a saved : Analysis) (turns : Nat) (stage : Stage) : Prop :=
  (∀ reply, stage = .done reply → ∃ r, reply = .result r ∧ r.Reports id a topN ∧
    r.AgreesWith (summary id saved)) ∧
  (3 * (rankedAddresses a topN).length + 2 ≤ turns → ∃ reply, stage = .done reply)

theorem Answering.answers {id topN : UInt64} {a : Analysis} {stage : Stage} {turns : Nat}
    (h : Answering id topN (a.withId id) stage)
    (hleft : stage.left (rankedAddresses a topN).length ≤
      3 * (rankedAddresses a topN).length + 2 - turns) :
    Answers id topN a (a.withId id) turns stage := by
  refine ⟨?_, ?_⟩
  · rintro reply rfl
    cases h with
    | answered => exact ⟨_, rfl, reports_of id id a topN _, agreesWith_summary id _ topN _⟩
  · intro hturns
    rw [Nat.sub_eq_zero_of_le hturns] at hleft
    exact h.done_of_left (Nat.le_zero.1 hleft)

/-- Ingests are numbered in the order in which they draw. Once one has come back with an identity,
every later query for it is answered, with a result that reports its batch and agrees with its
summary. -/
theorem stored_results_stay (cache : Cache) (eagerTopN : UInt64) (events : List Event)
    (hfew : ingests events < UInt64.size) :
    let start := Traffic.start cache eagerTopN
    Numbered (start.draws events) (start.run events).sessions ∧
    ∀ (before between later : List Event) (number : Nat) (call : Call) (saved : Analysis)
      (id topN : UInt64),
      events = before ++ between ++ .call (.result id topN) :: later →
      (start.run before).sessions[number]? = some ⟨call, .done (.accepted saved)⟩ →
      saved.id = some id →
      ∃ createdAt reads a stage, call = .ingest createdAt reads ∧
        aggregate createdAt reads = .ok a ∧ saved = a.withId id ∧
        (start.run events).sessions[(start.run (before ++ between)).sessions.length]? =
          some ⟨.result id topN, stage⟩ ∧
        Answers id topN a saved (turnsOf (start.run (before ++ between)).sessions.length later)
          stage := by
  intro start
  refine ⟨(Traffic.consistent_run cache eagerTopN events hfew).numbered, ?_⟩
  intro before between later number call saved id topN hevents hreturned hid
  have hsplit (past : List Event) : before ++ between ++ .call (.result id topN) :: past =
      before ++ (between ++ .call (.result id topN) :: past) := List.append_assoc _ _ _
  have hfewer (past : List Event) (hpast : past <+: later) :
      ingests (before ++ (between ++ .call (.result id topN) :: past)) < UInt64.size := by
    obtain ⟨rest, rfl⟩ := hpast
    rw [hevents, ← List.cons_append, ← List.append_assoc, hsplit, ingests_append] at hfew
    exact Nat.lt_of_le_of_lt (Nat.le_add_right _ _) hfew
  obtain ⟨-, createdAt, reads, a, rfl, hbatch, rfl⟩ :=
    Traffic.find_run (hfewer later (List.prefix_refl _)) hreturned hid
  let asked := (start.run (before ++ between)).next (.call (.result id topN))
  have hrun (past : List Event) : asked.run past =
      start.run (before ++ between ++ .call (.result id topN) :: past) := by
    rw [Traffic.run_append]
    rfl
  have hquery : asked.sessions[(start.run (before ++ between)).sessions.length]? =
      some ⟨.result id topN, .finding id topN⟩ := List.getElem?_concat_length
  obtain ⟨stage, hstage, hanswering, hleft⟩ := Traffic.answering_run later hquery .finding
    (a := a.withId id) fun past hpast => by
      rw [hrun, hsplit]
      exact (Traffic.find_run (hfewer past hpast) hreturned hid).1
  rw [hrun, ← hevents] at hstage
  exact ⟨createdAt, reads, a, stage, rfl, hbatch, rfl, hstage, hanswering.answers hleft⟩

/-- The analysis that an ingest has come back with. -/
def Session.saved? (x : Session) : Option Analysis :=
  match x.stage with
  | .done (.accepted saved) => some saved
  | _ => none

theorem eq_of_saved? {x : Session} {saved : Analysis} (h : x.saved? = some saved) :
    x = ⟨x.call, .done (.accepted saved)⟩ := by
  unfold Session.saved? at h
  split at h
  · rename_i hstage
    cases h
    rw [← hstage]
  · cases h

/-- A batch of one request of a client. -/
def requestBatch (client : String) : List Read :=
  [.bytes (encode ("time\n\"1/29/2025, 5:44:36.000 PM\"," ++ client)),
    .bytes (encode ",GET,/a,curl,200,HTTP/1.1,1,2,3,TLSv1.3,/a"), .bytes []]

/-- Of two ingests the second draws first and inserts last, and a third one is refused. -/
def crossing : List Event :=
  [.call (.ingest 7 (requestBatch "1.1.1.1")), .call (.ingest 8 (requestBatch "2.2.2.2")),
    .call (.ingest 9 [.failed "connection reset"]), .task 1, .task 0, .task 0, .task 1, .task 1,
    .task 1, .task 1]

/-- A query for what the second has stored, beside the worker, the first and a fourth ingest. -/
def asking : List Event :=
  [.call (.ingest 10 []), .task 3, .task 4, .worker, .task 3, .task 3, .task 0, .task 4, .worker,
    .task 3, .task 3]

theorem stored_results_stay_crossing :
    ingests (crossing ++ [.worker] ++ .call (.result 1 5) :: asking) < UInt64.size ∧
    (Traffic.start .standard 10).draws (crossing ++ [.worker] ++ .call (.result 1 5) :: asking) =
      [(1, 1), (0, 2), (4, 3)] ∧
    ∃ r, ((Traffic.start .standard 10).run
        (crossing ++ [.worker] ++ .call (.result 1 5) :: asking)).sessions[3]? =
        some ⟨.result 1 5, .done (.result r)⟩ ∧
      r.createdAt = 8 ∧ r.totalRequests = 1 ∧
      r.topAddresses.map RankedAddress.address = ["2.2.2.2"] := by
  have hfew : ingests (crossing ++ [.worker] ++ .call (.result 1 5) :: asking) < UInt64.size := by
    decide
  refine ⟨hfew, by decide +kernel, ?_⟩
  have hsaved : (((Traffic.start .standard 10).run crossing).sessions[1]?).bind Session.saved? =
      some (((Aggregator.empty.count "/a" "2.2.2.2" 200).finish 8).withId 1) := by decide +kernel
  obtain ⟨x, hx, hx'⟩ := Option.bind_eq_some_iff.1 hsaved
  rw [eq_of_saved? hx'] at hx
  obtain ⟨_, _, a, stage, -, -, ha, hstage, hreplies, hturns⟩ :=
    (stored_results_stay .standard 10 _ hfew).2 crossing [.worker] asking 1 x.call _ 1 5 rfl hx rfl
  have hlength :
      ((Traffic.start .standard 10).run (crossing ++ [.worker])).sessions.length = 3 := by
    decide +kernel
  have hranked : rankedAddresses a 5 = ["2.2.2.2"] :=
    (congrArg (rankedAddresses · 5) ha).symm.trans (by decide +kernel)
  rw [hlength] at hstage hturns
  obtain ⟨reply, rfl⟩ := hturns (by rw [hranked]; decide)
  obtain ⟨r, rfl, hr, -⟩ := hreplies reply rfl
  refine ⟨r, hstage, ?_, ?_, ?_⟩
  · exact hr.createdAt.trans (congrArg Analysis.createdAt ha).symm
  · exact hr.totalRequests.trans (congrArg Analysis.totalRequests ha).symm
  · rw [← hranked]
    have haddresses := congrArg (List.map Prod.fst) hr.topAddresses
    rwa [List.map_map, List.map_map] at haddresses

end AccessLog.Service
