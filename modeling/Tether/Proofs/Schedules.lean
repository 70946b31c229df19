import Tether.Proofs.Twins

/-!
# Schedules

`Coordinator.call` gives the answer of an action beside the state that it leaves. A `Scheduler`
decides in which order the workers of a pass over all entities take their turns, and
`Coordinator.callBy` is the call with such a pass in the place of the one that
`Coordinator.synchronizeAll` makes, inside a step as well.

The main statement, `Coordinator.workers_run`, is about coordinators with settings, journals and
schedulers of their own : every pass is that of visiting the bound rows one after another, and
the same actions get the same answers and lead through the same states.
-/

set_option linter.unusedSectionVars false

namespace Tether

variable {ο σ : Type} [HostObject ο]

/-! ## Calls -/

/-- What an action gives back. -/
def Action.Answer : Action ο σ → Type
  | .surround _ | .advance _ | .listenForIncidents => Unit
  | .bind _ => Except Error Handle
  | .unbind _ | .unbindHost _ => Except Error Unit
  | .addComponent .. => Except Error Bool
  | .removeComponent .. => Except Error (Option Value)
  | .writeComponent .. | .writeWorld .. | .unsubscribe .. | .unsubscribeNamed _ => Bool
  | .registerComponent _ => ComponentId
  | .reap | .enqueue _ | .signal .. => Nat
  | .flush => Outcome FlushReport
  | .synchronize .. => Except Error SyncReport
  | .synchronizeAll _ => SyncReport
  | .subscribe .. => Subscription
  | .publish _ => Reply
  | .dispatch => Except Error DispatchReport
  | .step _ => Outcome FrameReport
  | .subscribeNamed .. => NamedSubscription
  | .delaySignal .. => Except ClockOverflow Unit
  | .takeIncidents => List Incident

namespace Coordinator

/-- A frame up to its pass over all entities. -/
def beginStep (c : Coordinator ο σ) (delta : Duration) : Outcome FlushReport × Coordinator ο σ :=
  match c.frame.advance delta with
  | .error overflow => (.error overflow, c)
  | .ok frame => { c with frame }.flushOnce

/-- A frame after its pass over all entities. -/
def endStep (number : Nat) (flush : FlushReport) (sync : SyncReport) (c : Coordinator ο σ) :
    Outcome FrameReport × Coordinator ο σ :=
  match c.dispatch with
  | (.error error, c) => (.ok (.error error), c)
  | (.ok dispatch, c) =>
    (.ok (.ok { frame := number, flush, sync, dispatch }),
      c.note (.frameDone number flush.applied sync.entities
        (dispatch.delivered + dispatch.named)))

/-- One full frame with a given pass over all entities. -/
def stepWith (pass : Coordinator ο σ → Direction → SyncReport × Coordinator ο σ)
    (c : Coordinator ο σ) (delta : Duration) : Outcome FrameReport × Coordinator ο σ :=
  match c.beginStep delta with
  | (.error overflow, d) => (.error overflow, d)
  | (.ok (.error error), d) => (.ok (.error error), d)
  | (.ok (.ok flush), d) =>
    let (sync, d) := pass d .bidirectional
    endStep c.frame.number flush sync d

theorem stepWith_synchronizeAll (c : Coordinator ο σ) (delta : Duration) :
    c.stepWith synchronizeAll delta = c.step delta := by
  unfold stepWith step beginStep Frame.advance
  cases c.frame.time.add? delta <;> rfl

/-- The answer of an action and the state after it, with a given pass over all entities. -/
def callWith (pass : Coordinator ο σ → Direction → SyncReport × Coordinator ο σ)
    (c : Coordinator ο σ) : (a : Action ο σ) → a.Answer × Coordinator ο σ
  | .surround change => ((), { c with surroundings := change c.surroundings })
  | .bind host => c.bind host
  | .unbind h => c.unbind h
  | .unbindHost id => c.unbindHost id
  | .reap => c.reap
  | .addComponent h id value => c.addComponent h id value
  | .removeComponent h id => c.removeComponent h id
  | .writeComponent h id value => c.writeComponent h id value
  | .writeWorld h id value => c.writeWorld h id value
  | .registerComponent name => c.registerComponent name
  | .enqueue mutation => c.enqueue mutation
  | .flush => c.flush
  | .synchronize h direction => c.synchronize h direction
  | .synchronizeAll direction => pass c direction
  | .subscribe line kind listener => c.subscribe line kind listener
  | .unsubscribe line subscription => c.unsubscribe line subscription
  | .publish signal => c.publish signal
  | .dispatch => c.dispatch
  | .advance delta => ((), c.advance delta)
  | .step delta => c.stepWith pass delta
  | .subscribeNamed name listener => c.subscribeNamed name listener
  | .unsubscribeNamed subscription => c.unsubscribeNamed subscription
  | .signal name entities => c.signal name entities
  | .delaySignal name entities delay => c.delaySignal name entities delay
  | .listenForIncidents => ((), c.listenForIncidents)
  | .takeIncidents => c.takeIncidents

/-- The answer of an action and the state after it. -/
def call (c : Coordinator ο σ) (a : Action ο σ) : a.Answer × Coordinator ο σ :=
  c.callWith synchronizeAll a

theorem call_snd (c : Coordinator ο σ) (a : Action ο σ) : (c.call a).2 = c.act a := by
  cases a with
  | step delta => exact congrArg Prod.snd (c.stepWith_synchronizeAll delta)
  | _ => rfl

/-- The answers to a list of actions. -/
def answers : Coordinator ο σ → List (Action ο σ) → List (Σ a : Action ο σ, a.Answer)
  | _, [] => []
  | c, a :: as => ⟨a, (c.call a).1⟩ :: (c.act a).answers as

/-! ### No call asks for settings or journal -/

theorem deaf_beginStep (delta : Duration) :
    Deaf fun c : Coordinator ο σ => c.beginStep delta := by
  intro c s j
  simp only [beginStep, show (c.under s j).frame = c.frame from rfl]
  cases c.frame.advance delta with
  | error overflow => exact ⟨j, rfl⟩
  | ok frame => exact deaf_flushOnce.under { c with frame } s j

theorem deaf_endStep (number : Nat) (flush : FlushReport) (sync : SyncReport) :
    Deaf fun c : Coordinator ο σ => c.endStep number flush sync := by
  intro c s j
  obtain ⟨j', hdispatch⟩ := deaf_dispatch.under c s j
  simp only [endStep, hdispatch]
  generalize c.dispatch = x
  obtain ⟨result, d⟩ := x
  cases result <;> exact ⟨_, rfl⟩

theorem deaf_stepWith {pass : Coordinator ο σ → Direction → SyncReport × Coordinator ο σ}
    (hpass : ∀ direction, Deaf fun c => pass c direction) (delta : Duration) :
    Deaf fun c : Coordinator ο σ => c.stepWith pass delta := by
  intro c s j
  obtain ⟨j', hbegin⟩ := (deaf_beginStep delta).under c s j
  simp only [stepWith, hbegin]
  generalize c.beginStep delta = x
  obtain ⟨result, d⟩ := x
  match result with
  | .error overflow => exact ⟨j', rfl⟩
  | .ok (.error error) => exact ⟨j', rfl⟩
  | .ok (.ok flush) =>
    exact ((hpass .bidirectional).bind (g := endStep c.frame.number flush)
      (deaf_endStep c.frame.number flush)) d s j'

theorem deaf_call (a : Action ο σ) : Deaf fun c : Coordinator ο σ => c.call a := by
  cases a with
  | bind host => exact deaf_of_tandem fun h => tandem_bind h host
  | unbind h => exact deaf_of_tandem fun hc => tandem_unbind hc h
  | unbindHost id => exact deaf_of_tandem fun h => tandem_unbindHost h id
  | reap => exact deaf_reap
  | addComponent h id value => exact deaf_of_tandem fun hc => tandem_addComponent hc h id value
  | removeComponent h id => exact deaf_of_tandem fun hc => tandem_removeComponent hc h id
  | writeComponent h id value => exact deaf_writeComponent h id value
  | writeWorld h id value => exact deaf_writeWorld h id value
  | flush => exact deaf_flush
  | synchronize h direction => exact deaf_synchronize h direction
  | synchronizeAll direction => exact deaf_synchronizeAll direction
  | publish signal => exact deaf_publish signal
  | dispatch => exact deaf_dispatch
  | advance delta => exact deaf_advance delta
  | step delta => exact deaf_stepWith deaf_synchronizeAll delta
  | signal name entities => exact deaf_signal name entities
  | delaySignal name entities delay =>
    exact deaf_of_tandem fun h => tandem_delaySignal h name entities delay
  | surround _ | registerComponent _ | enqueue _ | subscribe _ _ _ | unsubscribe _ _
  | subscribeNamed _ _ | unsubscribeNamed _ | listenForIncidents | takeIncidents =>
    exact fun c s j => ⟨j, rfl⟩

end Coordinator

/-! ## Schedulers -/

namespace Crew

/-- At most so many turns in which always the first worker that is not done visits the next of its
entities. -/
def inOrder (direction : Direction) : Nat → Crew ο σ → List Nat
  | 0, _ => []
  | n + 1, k =>
    match k.workers.findIdx? fun w => !w.todo.isEmpty with
    | some i => i :: inOrder direction n (k.turn direction i)
    | none => []

theorem finished_inOrder (direction : Direction) {n : Nat} {k : Crew ο σ}
    (hn : (k.workers.flatMap Worker.todo).length ≤ n) :
    (k.run direction (inOrder direction n k)).Finished := by
  induction n generalizing k with
  | zero =>
    exact List.flatMap_eq_nil_iff.mp (List.length_eq_zero_iff.mp (Nat.le_zero.mp hn))
  | succ n ih =>
    unfold inOrder
    cases hi : k.workers.findIdx? fun w => !w.todo.isEmpty with
    | none =>
      rw [List.findIdx?_eq_none_iff] at hi
      exact fun w hw => by simpa using hi w hw
    | some i =>
      obtain ⟨hlt, hbusy, -⟩ := List.findIdx?_eq_some_iff_getElem.mp hi
      refine ih (k := k.turn direction i) ?_
      have hget : k.workers[i]? = some k.workers[i] := List.getElem?_eq_getElem hlt
      generalize k.workers[i] = w at hget hbusy
      obtain ⟨report, todo⟩ := w
      cases todo with
      | nil => simp at hbusy
      | cons h todo =>
        -- the worker has one entity less to visit
        have hperm := (perm_set hget
          (Coordinator.visit direction (report, k.state) h).1).length_eq
        rw [List.length_cons] at hperm
        simp only [turn, hget]
        omega

end Crew

/-- An order of turns for every pass over all entities, in which all workers get done. -/
structure Scheduler (ο σ : Type) [HostObject ο] where
  turns : Coordinator ο σ → Direction → List Nat
  finished : ∀ (c : Coordinator ο σ) (direction : Direction),
    (c.crew.run direction (turns c direction)).Finished

/-- One worker after another. -/
instance : Inhabited (Scheduler ο σ) where
  default :=
    { turns := fun c direction =>
        Crew.inOrder direction (c.crew.workers.flatMap Worker.todo).length c.crew
      finished := fun _ direction => Crew.finished_inOrder direction (Nat.le_refl _) }

namespace Coordinator

/-- Synchronize every bound entity, the workers taking turns as the scheduler says. -/
def passBy (s : Scheduler ο σ) (c : Coordinator ο σ) (direction : Direction) :
    SyncReport × Coordinator ο σ :=
  let k := c.crew.run direction (s.turns c direction)
  (k.report, k.report.failures.foldl reportSynchronization k.state)

/-- The answer of an action and the state after it, under a scheduler. -/
def callBy (s : Scheduler ο σ) (c : Coordinator ο σ) (a : Action ο σ) :
    a.Answer × Coordinator ο σ :=
  c.callWith (passBy s) a

/-- The state after a list of actions, each under a scheduler of its own. -/
def runBy (c : Coordinator ο σ) (xs : List (Action ο σ × Scheduler ο σ)) : Coordinator ο σ :=
  xs.foldl (fun c x => (callBy x.2 c x.1).2) c

/-- The answers to a list of actions, each under a scheduler of its own. -/
def answersBy : Coordinator ο σ → List (Action ο σ × Scheduler ο σ) →
    List (Σ a : Action ο σ, a.Answer)
  | _, [] => []
  | c, (a, s) :: xs => ⟨a, (callBy s c a).1⟩ :: (callBy s c a).2.answersBy xs

/-- All along a list of actions an object is always named by the same identity. -/
def UnsharedAlong : Coordinator ο σ → List (Action ο σ) → Prop
  | c, [] => c.Unshared
  | c, a :: as => c.Unshared ∧ (c.act a).UnsharedAlong as

instance decidableUnsharedAlong :
    (as : List (Action ο σ)) → (c : Coordinator ο σ) → Decidable (c.UnsharedAlong as)
  | [], c => inferInstanceAs (Decidable c.Unshared)
  | a :: as, c =>
    have := decidableUnsharedAlong as (c.act a)
    inferInstanceAs (Decidable (c.Unshared ∧ (c.act a).UnsharedAlong as))

theorem UnsharedAlong.head {c : Coordinator ο σ} {as : List (Action ο σ)}
    (h : c.UnsharedAlong as) : c.Unshared := by
  cases as with
  | nil => exact h
  | cons a as => exact h.1

theorem Unshared.of_alike {c d : Coordinator ο σ} (hu : d.Unshared)
    (h : c.population.Alike d.population) : c.Unshared := by
  intro i j e e' he he' haddr
  obtain ⟨x, hx, -, hhost, -⟩ := h.symm_entry_of he
  obtain ⟨y, hy, -, hhost', -⟩ := h.symm_entry_of he'
  rw [← hhost, ← hhost'] at haddr ⊢
  exact hu i j x y hx hy haddr

/-- Whatever the order of turns, a pass has the same answer and leaves the same state, the journal
aside. -/
theorem passBy_eq {c : Coordinator ο σ} (hp : c.population.Placed) (hu : c.Unshared)
    (s : Scheduler ο σ) (direction : Direction) :
    ∃ j, passBy s c direction = ((c.synchronizeAll direction).1,
      (c.synchronizeAll direction).2.under c.settings j) := by
  obtain ⟨⟨hreport, j, hstate⟩, -⟩ := crew_finished hp hu direction (s.finished c direction)
  rw [synchronizeAll_eq]
  have hsettings := (deaf_visitAll direction).settings c
  obtain ⟨j', hall⟩ := (Deaf.foldl deaf_reportSynchronization
    (c.visitAll direction).1.failures).under (c.visitAll direction).2 c.settings j
  refine ⟨j', ?_⟩
  rw [passBy, hreport, hstate, ← (Prod.mk.inj hall).2, ← hsettings]
  rfl

theorem placed_beginStep {c : Coordinator ο σ} (hp : c.population.Placed) (delta : Duration) :
    (c.beginStep delta).2.population.Placed := by
  unfold beginStep
  split
  · exact hp
  · exact placed_flushOnce (c := { c with frame := _ }) hp

theorem alike_endStep (number : Nat) (flush : FlushReport) (sync : SyncReport)
    (c : Coordinator ο σ) :
    c.population.Alike (c.endStep number flush sync).2.population := by
  have hdispatch := c.calm_dispatch.alike
  unfold endStep
  split <;> rename_i heq <;> rw [heq] at hdispatch <;> exact hdispatch

theorem stepBy_eq {c : Coordinator ο σ} (hp : c.population.Placed) (s : Scheduler ο σ)
    (delta : Duration) (hu : (c.stepWith synchronizeAll delta).2.Unshared) :
    ∃ j, c.stepWith (passBy s) delta = ((c.stepWith synchronizeAll delta).1,
      (c.stepWith synchronizeAll delta).2.under c.settings j) := by
  have hsettings := (deaf_beginStep delta).settings c
  have hplaced := placed_beginStep hp delta
  unfold stepWith at hu ⊢
  generalize c.beginStep delta = x at *
  obtain ⟨result, d⟩ := x
  dsimp only at hsettings hplaced
  match result with
  | .error overflow => exact ⟨d.journal, by rw [← hsettings]; rfl⟩
  | .ok (.error error) => exact ⟨d.journal, by rw [← hsettings]; rfl⟩
  | .ok (.ok flush) =>
    -- what comes after the pass changes nobody's object, so all was well before it
    have hd : d.Unshared := hu.of_alike
      ((d.calm_synchronizeAll .bidirectional).alike.trans (alike_endStep _ _ _ _))
    obtain ⟨j, hpass⟩ := passBy_eq hplaced hd s .bidirectional
    obtain ⟨j', hend⟩ :=
      (deaf_endStep c.frame.number flush (d.synchronizeAll .bidirectional).1).under
        (d.synchronizeAll .bidirectional).2 d.settings j
    refine ⟨j', ?_⟩
    dsimp only
    rw [hpass, ← hsettings]
    exact hend

theorem callBy_eq {c : Coordinator ο σ} (hp : c.population.Placed) (s : Scheduler ο σ)
    (a : Action ο σ) (hu : c.Unshared) (hu' : (c.act a).Unshared) :
    ∃ j, callBy s c a = ((c.call a).1, (c.act a).under c.settings j) := by
  have hsame : ∃ j, c.call a = ((c.call a).1, (c.act a).under c.settings j) := by
    rw [← call_snd]
    exact (deaf_call a).under c c.settings c.journal
  cases a with
  | synchronizeAll direction => exact passBy_eq hp hu s direction
  | step delta =>
    have hstep := stepBy_eq hp s delta (call_snd c (.step delta) ▸ hu')
    rwa [show (c.stepWith synchronizeAll delta).2 = _ from call_snd c (.step delta)] at hstep
  | _ => exact hsame

/-- Under whatever schedulers, settings and journal, a list of actions gets the answers and leads
to the state that it does in the settings of the coordinator. -/
theorem runBy_eq {c : Coordinator ο σ} (hp : c.population.Placed)
    {xs : List (Action ο σ × Scheduler ο σ)} (hu : c.UnsharedAlong (xs.map Prod.fst))
    (s : Settings) (j : Journal) :
    (c.under s j).answersBy xs = c.answers (xs.map Prod.fst) ∧
      ∃ j', (c.under s j).runBy xs = (c.run (xs.map Prod.fst)).under s j' := by
  induction xs generalizing c j with
  | nil => exact ⟨rfl, j, rfl⟩
  | cons x xs ih =>
    obtain ⟨a, t⟩ := x
    obtain ⟨hhead, hrest⟩ := hu
    obtain ⟨k, hdeaf⟩ := (deaf_call a).under c s j
    have hact : (c.under s j).act a = (c.act a).under s k := by
      rw [← call_snd, hdeaf, call_snd]
    have hu' : ((c.under s j).act a).Unshared := by
      rw [hact]
      exact hrest.head
    obtain ⟨k', hcall⟩ := callBy_eq (c := c.under s j) hp t a hhead hu'
    have hone : callBy t (c.under s j) a = ((c.call a).1, (c.act a).under s k') := by
      rw [hcall, hdeaf, hact]
      rfl
    obtain ⟨hanswers, j', hrun⟩ := ih (placed_act hp a) hrest k'
    refine ⟨?_, j', ?_⟩
    · simp only [answersBy, hone, hanswers]
      rfl
    · simp only [runBy, List.foldl_cons, hone]
      exact hrun

/-- With the workers taking turns in a given order, a pass over all entities is that of visiting the
bound rows one after another : it has the same report, failures in the same order, and leaves the
same world and the same host objects, as all else but the journal. -/
structure OneByOne (c : Coordinator ο σ) (direction : Direction) (turns : List Nat) : Prop where
  ordered : c.boundRows.Pairwise fun a b => a.slot < b.slot
  /-- At each turn a worker visits the next of its entities, as far as it has any. -/
  turned : ∀ before i after, turns = before ++ i :: after →
    Crew.Turned direction (c.crew.run direction before) i
      (c.crew.run direction (before ++ [i]))
  report : (c.crew.run direction turns).report = (c.visitAll direction).1
  state : ∃ j, (c.crew.run direction turns).state = { (c.visitAll direction).2 with journal := j }
  /-- A pass is run over every bound entity whose host object exists, and over each once. -/
  once : (c.crew.run direction turns).passes.Nodup
  visited : ∀ h, h ∈ (c.crew.run direction turns).passes ↔ h ∈ c.boundRows ∧
    ∃ host, c.registry.resolve? h = some host ∧ c.hosts.alive host = true

theorem oneByOne_of_finished {c : Coordinator ο σ} (hp : c.population.Placed) (hu : c.Unshared)
    {direction : Direction} {turns : List Nat}
    (hf : (c.crew.run direction turns).Finished) : c.OneByOne direction turns := by
  obtain ⟨⟨hreport, hstate⟩, honce, hvisited⟩ := crew_finished hp hu direction hf
  refine ⟨pairwise_boundRows hp, fun before i after _ => ?_, hreport, hstate, honce, hvisited⟩
  rw [Crew.run_concat]
  exact Crew.turned_turn direction _ i

/-- Where objects are not shared between identities, neither the number of workers nor the threshold
nor the order of turns matters :

* whenever the workers of a pass have finished, all is as if the bound rows had been visited one
  after another, and so is what `synchronizeAll` gives back;
* the bound rows are those of all bound entities, with slot numbers that last, as in `sound_run`;
* with other settings, another journal and other schedulers the same actions get the same answers
  and lead to the same state, but for the settings and the journal. -/
theorem workers_run (table : Table) (settings : Settings) (surroundings : Surroundings ο σ)
    (journal : Journal) (as : List (Action ο σ)) {xs ys : List (Action ο σ × Scheduler ο σ)}
    (hxy : ys.map Prod.fst = xs.map Prod.fst)
    (hu : ((withTable table settings surroundings journal).run as).UnsharedAlong
      (xs.map Prod.fst)) :
    let c := (withTable table settings surroundings journal).run as
    (∀ direction,
      c.synchronizeAll direction = ((c.visitAll direction).1,
        (c.visitAll direction).1.failures.foldl reportSynchronization
          (c.visitAll direction).2) ∧
      ∀ turns, (c.crew.run direction turns).Finished → c.OneByOne direction turns) ∧
    (c.registry.allocator.capacity ≤ 2 ^ 32 →
      ∀ h, h ∈ c.boundRows ↔ c.registry.isBound h = true) ∧
    ∀ settings' journal',
      (c.under settings' journal').answersBy ys = c.answersBy xs ∧
        ∃ j, (c.under settings' journal').runBy ys = (c.runBy xs).under settings' j := by
  intro c
  have hp : c.population.Placed := placed_run table settings surroundings journal as
  refine ⟨fun direction => ⟨synchronizeAll_eq c direction, fun turns hf =>
    oneByOne_of_finished hp hu.head hf⟩, fun hcap h => ?_, fun settings' journal' => ?_⟩
  · have hconsistent := consistent_run table settings surroundings journal as hcap
    rw [mem_boundRows hp, contains_iff_isBound hconsistent, and_self]
  · obtain ⟨hanswers, j, hrun⟩ := runBy_eq hp hu c.settings c.journal
    obtain ⟨hanswers', j', hrun'⟩ := runBy_eq hp (hxy.symm ▸ hu) settings' journal'
    rw [hxy] at hanswers' hrun'
    refine ⟨hanswers'.trans hanswers.symm, j', hrun'.trans ?_⟩
    rw [show c.runBy xs = _ from hrun]
    rfl

/-- Two entities and a worker for each of them, of which the second one has its turn first. -/
theorem workers_run_pair :
    let hosts := (({} : Hosts PropertyBag).create ⟨7⟩ ⟨[("health", .int 3)]⟩ true).2
    let settings := { sync := { workers := .count 2, parallelThreshold := 0 } }
    let c := (withTable sample.table settings
      ⟨(hosts.create ⟨8⟩ ⟨[("health", .int 4)]⟩ true).2, ()⟩ {}).run
      [.bind ⟨⟨7⟩, 0⟩, .bind ⟨⟨8⟩, 1⟩, .writeComponent ⟨1, 0⟩ ⟨0⟩ (.int 5)]
    c.UnsharedAlong [.synchronizeAll .bidirectional] ∧
      (c.crew.run .bidirectional [1, 0]).Finished ∧
      (c.crew.run .bidirectional [1, 0]).passes = [⟨1, 0⟩, ⟨0, 0⟩] ∧
      c.OneByOne .bidirectional [1, 0] := by
  intro hosts settings c
  have hu : c.UnsharedAlong [.synchronizeAll .bidirectional] := by decide +kernel
  have hf : (c.crew.run .bidirectional [1, 0]).Finished := by
    unfold Crew.Finished
    decide +kernel
  let xs : List (Action PropertyBag Unit × Scheduler PropertyBag Unit) :=
    [(.synchronizeAll .bidirectional, default)]
  have hxs : xs.map Prod.fst = xs.map Prod.fst := rfl
  have hall := workers_run sample.table settings
    ⟨(hosts.create ⟨8⟩ ⟨[("health", .int 4)]⟩ true).2, ()⟩ {}
    [.bind ⟨⟨7⟩, 0⟩, .bind ⟨⟨8⟩, 1⟩, .writeComponent ⟨1, 0⟩ ⟨0⟩ (.int 5)] hxs hu
  exact ⟨hu, hf, by decide +kernel, (hall.1 .bidirectional).2 [1, 0] hf⟩

end Coordinator

end Tether
