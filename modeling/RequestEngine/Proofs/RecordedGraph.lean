import RequestEngine.Fixtures
import RequestEngine.Proofs.Career
import RequestEngine.Proofs.CycleFree
import RequestEngine.Proofs.CyclicLines

/-!
Contract: the recorded graph explains the stack and every cycle.

Owns:
- what the recorded graph says about a stack, and that every event keeps it up;
- that the steps of every cycle that was rejected are recorded;
- that the printed forest marks a cycle whenever one was counted.

The edge to a request is recorded before the request enters the stack, and the
edge that closes a cycle before the cycle is looked for. Abrupt ends leave
requests on the stack, and nothing that is recorded is ever taken back.

Does not own: which dependencies a computation has.
-/

namespace RequestEngine

open Relation

variable {Request : Type} [DecidableEq Request] {Value : Request → Type} {World : Type}

omit [DecidableEq Request] in
private theorem transGen_of_isChain {related : Request → Request → Prop} {first last : Request}
    {between : List Request} (chain : (first :: (between ++ [last])).IsChain related) :
    TransGen related first last := by
  induction between generalizing first with
  | nil => exact .single (List.isChain_cons_cons.mp chain).1
  | cons next rest inductionHypothesis =>
      obtain ⟨step, further⟩ := List.isChain_cons_cons.mp chain
      exact .head step (inductionHypothesis further)

/-! ### Stacks -/

/-- What a recorded graph says about the requests on a stack. -/
structure Recorder.Explains (recorder : Recorder Request) (active : List Request) : Prop where
  /-- The outermost request is a root. -/
  rooted : ∀ bottom, active.head? = some bottom → bottom ∈ recorder.roots
  /-- Every other request was asked for by the one below it. -/
  linked : active.IsChain recorder.Edge
  /-- Nothing asks for requests unless a root leads to it. -/
  grounded : ∀ {dependent needed}, recorder.Edge dependent needed →
    ∃ root ∈ recorder.roots, ReflTransGen recorder.Edge root dependent

namespace Recorder

variable {recorder : Recorder Request} {active : List Request} {request : Request}
variable {asker : Option Request}

private theorem reaches_mono {root needed : Request}
    (reaches : ReflTransGen recorder.Edge root needed) :
    ReflTransGen (recorder.record asker request).Edge root needed :=
  reaches.lift id extendedBy_record

private theorem mem_roots_mono {root : Request} (isRoot : root ∈ recorder.roots) :
    root ∈ (recorder.record asker request).roots :=
  mem_roots_record.mpr (.inl isRoot)

namespace Explains

/-- Every request on the stack is reached from a root, along the stack. -/
theorem reached (explains : recorder.Explains active) {member : Request}
    (isActive : member ∈ active) :
    ∃ root ∈ recorder.roots, ReflTransGen recorder.Edge root member := by
  obtain ⟨below, above, rfl⟩ := List.append_of_mem isActive
  cases below with
  | nil => exact ⟨member, explains.rooted member rfl, .refl⟩
  | cons bottom between =>
      have linked := explains.linked
      rw [List.append_cons] at linked
      have upward := transGen_of_isChain linked.left_of_append
      exact ⟨bottom, explains.rooted bottom rfl, upward.to_reflTransGen⟩

/-- The request that is asked for continues the chain of the stack. -/
theorem linked_record (explains : recorder.Explains active) (request : Request) :
    (active ++ [request]).IsChain (recorder.record active.getLast? request).Edge := by
  refine (explains.linked.imp extendedBy_record).append (.singleton _) ?_
  intro top isTop asked isAsked
  obtain rfl : request = asked := by simpa using isAsked
  exact edge_record.mpr (.inr ⟨isTop, rfl⟩)

/-- Recording what the topmost request asks for keeps the stack explained. -/
theorem record (explains : recorder.Explains active) (request : Request) :
    (recorder.record active.getLast? request).Explains active where
  rooted := fun bottom isBottom => mem_roots_mono (explains.rooted bottom isBottom)
  linked := explains.linked.imp extendedBy_record
  grounded := by
    intro dependent needed edge
    rcases edge_record.mp edge with before | ⟨isTop, rfl⟩
    · obtain ⟨root, isRoot, reaches⟩ := explains.grounded before
      exact ⟨root, mem_roots_mono isRoot, reaches_mono reaches⟩
    · obtain ⟨root, isRoot, reaches⟩ := explains.reached (List.mem_of_getLast? isTop)
      exact ⟨root, mem_roots_mono isRoot, reaches_mono reaches⟩

/-- A request may enter the stack once it is recorded. -/
theorem enter (explains : recorder.Explains active) (request : Request) :
    (recorder.record active.getLast? request).Explains (active ++ [request]) where
  rooted := by
    intro bottom isBottom
    cases active with
    | nil =>
        obtain rfl : request = bottom := by simpa using isBottom
        exact mem_roots_record.mpr (.inr ⟨rfl, rfl⟩)
    | cons first rest => exact (explains.record request).rooted bottom isBottom
  linked := explains.linked_record request
  grounded := (explains.record request).grounded

theorem leave (explains : recorder.Explains active) : recorder.Explains active.dropLast where
  rooted := by
    intro bottom isBottom
    obtain ⟨rest, remaining⟩ := List.head?_eq_some_iff.mp isBottom
    have isFirst : active.head? = some bottom := by
      obtain ⟨behind, whole⟩ := List.dropLast_prefix active
      rw [← whole, remaining]
      rfl
    exact explains.rooted bottom isFirst
  linked := explains.linked.dropLast
  grounded := explains.grounded

/-- Every event leaves a stack that is explained by what it has recorded. -/
theorem track {event : Event Request Value World} {opened : List Request}
    (explains : recorder.Explains active) (tracks : event.track active = some opened) :
    (event.recordIn active recorder).Explains opened := by
  cases event with
  | received request reception =>
      cases reception with
      | computing =>
          cases tracks
          exact explains.enter request
      | conflicting conflict =>
          cases tracks
          exact explains
      | refused clash =>
          cases tracks
          exact explains.record request
      | held value =>
          cases tracks
          exact explains.record request
      | rejected error diagnostics =>
          cases tracks
          exact explains.record request
  | finished request answer =>
      rw [Event.track] at tracks
      split at tracks
      · cases tracks
        exact explains.leave
      · cases tracks
  | abandoned request =>
      cases tracks
      exact explains
  | reported diagnostic =>
      cases tracks
      exact explains
  | updated change =>
      cases tracks
      exact explains

end Explains

end Recorder

/-! ### Cycles -/

namespace Program

variable {program : Program Request Value World} {options : Options}
variable {session before after : Session Request Value World} {recorder : Recorder Request}
variable {history past : List (Event Request Value World)}

/-- A cycle error that was built tells about a cycle of the recorded graph. It
shows the requests that were on the stack from the rejected one on, and the
rejected one again. -/
inductive CycleRecorded (program : Program Request Value World) (recorder : Recorder Request)
    (earlier : List (Event Request Value World)) (culprit : Request) (error : CycleError) :
    Prop where
  | intro {below above : List Request}
      (stack : unfinished [] earlier = some (below ++ culprit :: above))
      (once : culprit ∉ below ∧ culprit ∉ above)
      (chain : error.chain = (culprit :: (above ++ [culprit])).map program.display)
      (linked : (culprit :: (above ++ [culprit])).IsChain recorder.Edge)

/-- Every cycle error that was built in a history tells about recorded edges. -/
def CyclesRecorded (program : Program Request Value World) (recorder : Recorder Request)
    (history : List (Event Request Value World)) : Prop :=
  ∀ {earlier later culprit error diagnostics},
    history = earlier ++ .received culprit (.rejected error diagnostics) :: later →
    CycleRecorded program recorder earlier culprit error

theorem CycleRecorded.loops {culprit : Request} {error : CycleError}
    (recorded : CycleRecorded program recorder history culprit error) :
    TransGen recorder.Edge culprit culprit := by
  obtain ⟨_, _, _, linked⟩ := recorded
  exact transGen_of_isChain linked

theorem CycleRecorded.recordIn {event : Event Request Value World} {active : List Request}
    {culprit : Request} {error : CycleError}
    (recorded : CycleRecorded program recorder history culprit error) :
    CycleRecorded program (event.recordIn active recorder) history culprit error := by
  obtain ⟨stack, once, chain, linked⟩ := recorded
  exact ⟨stack, once, chain, linked.imp Recorder.extendedBy_recordIn⟩

/-- The edge that closes a cycle is recorded when the cycle is found. -/
theorem cycleRecorded_of_rejected {culprit : Request} {error : CycleError}
    {diagnostics : List Diagnostic}
    (step : Step program before (.received culprit (.rejected error diagnostics)) after)
    (explains : recorder.Explains before.evaluator.active)
    (distinct : before.evaluator.active.Nodup)
    (tracks : unfinished [] past = some before.evaluator.active) :
    CycleRecorded program (recorder.record before.evaluator.active.getLast? culprit) past culprit
      error := by
  obtain ⟨below, above, active, notBelow, notAbove, chain, _⟩ :=
    (narrated_of_rejected step distinct).traced
  refine ⟨tracks.trans (congrArg some active), ⟨notBelow, notAbove⟩, ?_, ?_⟩
  · rw [chain, ← List.cons_append, List.map_append, List.map_singleton]
  · have linked := explains.linked_record culprit
    rw [active, List.append_assoc] at linked
    rw [active]
    exact linked.right_of_append

/-- What an evaluator that records dependencies has recorded about a history. -/
structure Chronicle (program : Program Request Value World)
    (history : List (Event Request Value World)) (session : Session Request Value World)
    (recorder : Recorder Request) : Prop where
  recorded : session.evaluator.recorder = some recorder
  explains : recorder.Explains session.evaluator.active
  distinct : session.evaluator.active.Nodup
  tracks : unfinished [] history = some session.evaluator.active
  cycles : CyclesRecorded program recorder history
  counted : session.evaluator.metrics.cyclesDetected = history.countP Event.isRejection

theorem Chronicle.created {observed : Bool} (recording : options.recordDependencies = true)
    (isFresh : session.evaluator = .fresh options observed) :
    Chronicle program [] session {} where
  recorded := by rw [isFresh, Evaluator.fresh, recording, if_pos rfl]
  explains := by
    rw [isFresh]
    exact ⟨by rintro _ ⟨⟩, .nil, by rintro _ _ ⟨⟩⟩
  distinct := by
    rw [isFresh]
    exact List.nodup_nil
  tracks := by
    rw [isFresh]
    rfl
  cycles := by simp [CyclesRecorded]
  counted := by
    rw [isFresh]
    rfl

theorem Chronicle.step {event : Event Request Value World}
    (chronicle : Chronicle program past before recorder)
    (step : Step program before event after) :
    Chronicle program (past ++ [event]) after
      (event.recordIn before.evaluator.active recorder) where
  recorded := by rw [step.recorder_eq, chronicle.recorded, Option.map_some]
  explains := chronicle.explains.track step.track_active
  distinct := step.nodup_active chronicle.distinct
  tracks := by
    rw [unfinished_append, chronicle.tracks, Option.bind_some, unfinished_cons, step.track_active]
    rfl
  counted := by rw [step.cyclesDetected_eq, chronicle.counted, List.countP_append]
  cycles := by
    intro earlier later culprit error diagnostics parts
    rcases newest_or_earlier parts with ⟨rfl, rfl⟩ | ⟨further, inPast⟩
    · exact cycleRecorded_of_rejected step chronicle.explains chronicle.distinct chronicle.tracks
    · exact (chronicle.cycles inPast).recordIn

theorem Visits.chronicle (visits : Visits program options history session)
    (recording : options.recordDependencies = true) :
    ∃ recorder, Chronicle program history session recorder := by
  refine visits.preserves (fun history session => ∃ recorder, Chronicle program history session
    recorder) ?_ ?_ ?_
  · intro session observed isFresh
    exact ⟨_, .created recording isFresh⟩
  · rintro past event before after step ⟨recorder, chronicle⟩
    exact ⟨_, chronicle.step step⟩
  · rintro past before after sameEvaluator _ ⟨recorder, chronicle⟩
    obtain ⟨recorded, explains, distinct, tracks, cycles, counted⟩ := chronicle
    rw [← sameEvaluator] at recorded explains distinct tracks counted
    exact ⟨recorder, recorded, explains, distinct, tracks, cycles, counted⟩

/-- What the recorded graph of an evaluator tells at a moment of its career. -/
structure GraphExplains (program : Program Request Value World)
    (history : List (Event Request Value World)) (session : Session Request Value World)
    (recorder : Recorder Request) : Prop where
  /-- The graph is the one that the evaluator has recorded. -/
  recorded : session.evaluator.recorder = some recorder
  /-- It contains the stack, and is reached from its roots. -/
  explains : recorder.Explains session.evaluator.active
  /-- It contains the chain of every cycle error that was built, in particular of
  one that is built at this moment. -/
  cycles : CyclesRecorded program recorder history
  /-- When a cycle was counted, the forest has a line with the cyclic mark, and
  prints it. -/
  marked : 0 < session.evaluator.metrics.cyclesDetected →
    ∃ line ∈ recorder.forestLines, line.mark = .cyclic ∧
      (∃ shown, line.text program.display = shown ++ " (cyclic dependency)\n") ∧
      ∃ above below, recorder.printForest program.display =
        above ++ line.text program.display ++ below

/-- A counted cycle is below a root. -/
private theorem Chronicle.exists_cyclic_line
    (chronicle : Chronicle program history session recorder)
    (counted : 0 < session.evaluator.metrics.cyclesDetected) :
    ∃ line ∈ recorder.forestLines, line.mark = .cyclic := by
  rw [chronicle.counted, List.countP_pos_iff] at counted
  obtain ⟨event, happened, isRejection⟩ := counted
  obtain ⟨earlier, later, parts⟩ := List.append_of_mem happened
  match event, isRejection with
  | .received culprit (.rejected error diagnostics), _ =>
      have loops := (chronicle.cycles parts).loops
      obtain ⟨needed, edge, _⟩ := TransGen.head'_iff.mp loops
      obtain ⟨root, isRoot, reaches⟩ := chronicle.explains.grounded edge
      exact Recorder.exists_cyclic_line isRoot reaches loops

/-- An evaluator that records dependencies can explain its stack and its cycles at
every moment of its career, whatever it has computed so far and however that
has ended. -/
theorem Visits.graphExplains (visits : Visits program options history session)
    (recording : options.recordDependencies = true) :
    ∃ recorder, GraphExplains program history session recorder := by
  obtain ⟨recorder, chronicle⟩ := visits.chronicle recording
  refine ⟨recorder, chronicle.recorded, chronicle.explains, chronicle.cycles, fun counted => ?_⟩
  obtain ⟨line, isLine, marked⟩ := chronicle.exists_cyclic_line counted
  exact ⟨line, isLine, marked, Recorder.text_of_cyclic _ marked,
    Recorder.printForest_of_mem _ isLine⟩

/-- After two samples that ask for each other. -/
theorem graphExplains_cycleA :
    let program := Fixtures.program []
    let options : Options := { recordDependencies := true }
    let created : Session FixtureRequest FixtureValue FixtureState :=
      { evaluator := .fresh options false, world := {} }
    let after := (program.evaluate 3 (.cycleA 7) created).2
    after.evaluator.metrics.cyclesDetected = 1 ∧
    ∃ history recorder, Visits program options history after ∧
      GraphExplains program history after recorder ∧
      recorder.printForest program.display =
        "`--CycleA(7)\n   `--CycleB(7)\n      `--CycleA(7) (cyclic dependency)\n" := by
  intro program options created after
  have evaluates : program.run 3 (Computation.evaluate (.cycleA 7)) created =
      (.failed (.cycle ⟨"CycleA(7)", ["CycleA(7)", "CycleB(7)", "CycleA(7)"]⟩), after) :=
    (run_evaluate program 3 (.cycleA 7) created).trans rfl
  obtain ⟨call, runs⟩ := exists_run_of_run evaluates (by simp)
  have visits : Visits program options call after := .called rfl runs
  obtain ⟨recorder, explained⟩ := visits.graphExplains rfl
  have recorded : after.evaluator.recorder =
      some ⟨[.cycleA 7], [⟨.cycleA 7, [.cycleB 7]⟩, ⟨.cycleB 7, [.cycleA 7]⟩]⟩ := rfl
  refine ⟨rfl, _, recorder, visits, explained, ?_⟩
  rw [Option.some.inj (explained.recorded.symm.trans recorded)]
  decide +kernel

end Program

end RequestEngine
