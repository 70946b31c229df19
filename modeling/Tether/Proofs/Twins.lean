import Tether.Proofs.Structure
import Tether.Proofs.Tandem
import Tether.Proofs.Workers

/-!
# Settings and journals have no say

No operation reads the journal, and of the settings only the number of workers, the threshold and
the severity of a notice are ever read. So an operation gives the same answer and leaves the same
state whatever they are, up to settings and journal themselves (`Coordinator.Deaf`); there is one
lemma for each operation, up to `Coordinator.deaf_call` for all actions.

Coordinators made of settings with the same bindings differ in nothing else
(`Coordinator.ofSettings_under`), so what is shown here of two settings is shown of two
configurations of one program.
-/

set_option linter.unusedSectionVars false

namespace Tether

/-! ## Delivery -/

namespace Delivery

variable {σ : Type}

/-- Delivery with another journal. -/
def journaled (d : Delivery σ) (j : Journal) : Delivery σ := { d with journal := j }

/-- The journal has no part in what is done. -/
def Deaf {α : Type} (f : Delivery σ → α × Delivery σ) : Prop :=
  ∀ d j, ∃ j', f (d.journaled j) = ((f d).1, (f d).2.journaled j')

end Delivery

section Delivery

variable {σ : Type} {publish : Line → Signal → Delivery σ → Reply × Delivery σ}
  (hpublish : ∀ line s, Delivery.Deaf (publish line s))
include hpublish

theorem Program.deaf_run (p : Program σ) : Delivery.Deaf (p.run publish) := by
  induction p with
  | done result ambient => exact fun d j => ⟨j, rfl⟩
  | enqueue m next ih => exact fun d j => ih _ { d with queue := (d.queue.enqueue m).2 } j
  | subscribe line kind listener next _ ih =>
    exact fun d j => ih _ { d with
      switchboard := (d.switchboard.subscribe line kind listener).2 } j
  | unsubscribe line subscription next ih =>
    exact fun d j => ih _ { d with
      switchboard := (d.switchboard.unsubscribe line subscription).2 } j
  | inspect line kind next ih => exact fun d j => ih _ d j
  | publish line s ambient next ih =>
    intro d j
    obtain ⟨j', hone⟩ := hpublish line s { d with ambient } j
    obtain ⟨j'', hrest⟩ := ih (publish line s { d with ambient }).1
      (publish line s { d with ambient }).2.ambient (publish line s { d with ambient }).2 j'
    refine ⟨j'', ?_⟩
    simp only [Program.run]
    rw [show ({ d.journaled j with ambient } : Delivery σ) =
      Delivery.journaled { d with ambient } j from rfl, hone]
    exact hrest

theorem deaf_deliver (view : View) (s : Signal) (subs : List (Subscriber σ)) :
    Delivery.Deaf (deliver publish view s subs) := by
  induction subs with
  | nil => exact fun d j => ⟨j, rfl⟩
  | cons sub subs ih =>
    intro d j
    obtain ⟨j', hone⟩ := (sub.listener s view d.ambient).deaf_run hpublish d j
    obtain ⟨j'', hrest⟩ := ih ((sub.listener s view d.ambient).run publish d).2 j'
    refine ⟨j'', ?_⟩
    simp only [deliver]
    rw [show (d.journaled j).ambient = d.ambient from rfl, hone]
    dsimp only
    rw [hrest]
    split <;> rfl

end Delivery

theorem deaf_publishAt {σ : Type} (view : View) (depth : Nat) (line : Line) (s : Signal) :
    Delivery.Deaf (publishAt view depth line s : Delivery σ → _) := by
  induction depth generalizing line s with
  | zero => exact fun d j => ⟨j, rfl⟩
  | succ depth ih =>
    intro d j
    simp only [publishAt]
    rw [show (d.journaled j).switchboard = d.switchboard from rfl]
    split
    · exact ⟨j, rfl⟩
    · obtain ⟨j', hall⟩ := deaf_deliver ih view s
        (d.switchboard.channel line s.kind).subscribers
        { d.updateChannel line s.kind Channel.start with
          journal := d.journal.note
            (.publishing s.kind (d.switchboard.channel line s.kind).subscribers.length) }
        (j.note (.publishing s.kind (d.switchboard.channel line s.kind).subscribers.length))
      refine ⟨j', ?_⟩
      rw [show ({ (d.journaled j).updateChannel line s.kind Channel.start with
        journal := ((d.journaled j).updateChannel line s.kind Channel.start).journal.note
          (.publishing s.kind (d.switchboard.channel line s.kind).subscribers.length) } :
            Delivery σ) = Delivery.journaled _ _ from rfl]
      exact congrArg (fun x : List ListenerFailure × Delivery σ =>
        ((.ok x.1 : Reply), x.2.updateChannel line s.kind Channel.finish)) hall

/-! ## Coordinators -/

namespace Coordinator

variable {ο σ : Type} [HostObject ο]

/-- The coordinator under other settings, with another journal. -/
def under (c : Coordinator ο σ) (s : Settings) (j : Journal) : Coordinator ο σ :=
  { c with settings := s, journal := j }

/-- Settings and journal have no part in what is done. -/
def Deaf {α : Type} (f : Coordinator ο σ → α × Coordinator ο σ) : Prop :=
  ∀ c s j, ∃ j', f (c.under s j) = ((f c).1, (f c).2.under s j')

theorem Deaf.under {α : Type} {f : Coordinator ο σ → α × Coordinator ο σ} (hf : Deaf f)
    (c : Coordinator ο σ) (s : Settings) (j : Journal) :
    ∃ j', f (c.under s j) = ((f c).1, (f c).2.under s j') :=
  hf c s j

/-- The settings stay as they are. -/
theorem Deaf.settings {α : Type} {f : Coordinator ο σ → α × Coordinator ο σ} (hf : Deaf f)
    (c : Coordinator ο σ) : (f c).2.settings = c.settings := by
  obtain ⟨j, h⟩ := hf.under c c.settings c.journal
  exact congrArg (fun x => x.2.settings) h

theorem Deaf.bind {α β : Type} {f : Coordinator ο σ → α × Coordinator ο σ}
    {g : α → Coordinator ο σ → β × Coordinator ο σ} (hf : Deaf f) (hg : ∀ a, Deaf (g a)) :
    Deaf fun c => g (f c).1 (f c).2 := by
  intro c s j
  obtain ⟨j', hone⟩ := hf c s j
  obtain ⟨j'', hrest⟩ := hg (f c).1 (f c).2 s j'
  refine ⟨j'', ?_⟩
  dsimp only
  rw [hone]
  exact hrest

/-- The state is changed further once the answer is there. -/
theorem Deaf.followed {α β : Type} {f : Coordinator ο σ → α × Coordinator ο σ} (k : α → β)
    {g : α → Coordinator ο σ → Coordinator ο σ} (hf : Deaf f)
    (hg : ∀ a, Deaf fun c => ((), g a c)) : Deaf fun c => (k (f c).1, g (f c).1 (f c).2) := by
  refine hf.bind (g := fun a c => (k a, g a c)) fun a c s j => ?_
  obtain ⟨j', h⟩ := (hg a).under c s j
  exact ⟨j', Prod.ext rfl (Prod.mk.inj h).2⟩

theorem Deaf.foldl {α : Type} {g : Coordinator ο σ → α → Coordinator ο σ}
    (hg : ∀ a, Deaf fun c => ((), g c a)) (as : List α) : Deaf fun c => ((), as.foldl g c) := by
  induction as with
  | nil => exact fun c s j => ⟨j, rfl⟩
  | cons a as ih => exact (hg a).bind fun _ => ih

/-- What works on the core alone asks for neither settings nor journal. -/
theorem deaf_of_tandem {α : Type} {f : Coordinator ο σ → α × Coordinator ο σ}
    (hf : ∀ {c d : Coordinator ο σ}, c.core = d.core →
      (f c).1 = (f d).1 ∧ Tandem c (f c).2 d (f d).2) : Deaf f := by
  intro c s j
  obtain ⟨hanswer, hcore, is, hc, hd⟩ := hf (show c.core = (c.under s j).core from rfl)
  refine ⟨(f (c.under s j)).2.journal, Prod.ext hanswer.symm ?_⟩
  obtain ⟨hr, hw, ht, ho, hs, hdelayed, -⟩ := Core.ext_iff.mp hcore
  obtain ⟨-, hswitchboard, hlisteners, hlookup, hnumber, hqueue, hframe, -⟩ :=
    Rest.ext_iff.mp hc.rest
  obtain ⟨hs', hswitchboard', hlisteners', hlookup', hnumber', hqueue', hframe', -⟩ :=
    Rest.ext_iff.mp hd.rest
  have hi := hc.incidents
  have hi' := hd.incidents
  generalize (f c).2 = c' at *
  generalize (f (c.under s j)).2 = d' at *
  obtain ⟨_, _, _, _, _, ⟨⟩, _, _, _, _, _, _⟩ := c'
  obtain ⟨_, _, _, _, _, ⟨⟩, _, _, _, _, _, _⟩ := d'
  simp_all [under, core, rest]

/-! ### Components and structure -/

theorem deaf_writeComponent (h : Handle) (id : ComponentId) (value : Value) :
    Deaf fun c : Coordinator ο σ => c.writeComponent h id value := by
  intro c s j
  refine ⟨j, ?_⟩
  simp only [writeComponent, show (c.under s j).component? h id = c.component? h id from rfl]
  split <;> rfl

theorem deaf_writeWorld (h : Handle) (id : ComponentId) (value : Value) :
    Deaf fun c : Coordinator ο σ => c.writeWorld h id value := by
  intro c s j
  refine ⟨j, ?_⟩
  simp only [writeWorld, show (c.under s j).world = c.world from rfl]
  split <;> rfl

theorem deaf_advance (delta : Duration) :
    Deaf fun c : Coordinator ο σ => ((), c.advance delta) := by
  intro c s j
  refine ⟨j, ?_⟩
  simp only [advance, show (c.under s j).frame = c.frame from rfl]
  split <;> rfl

theorem deaf_reap : Deaf fun c : Coordinator ο σ => c.reap :=
  deaf_of_tandem fun h => tandem_reap h

theorem deaf_perform (m : Mutation) : Deaf fun c : Coordinator ο σ => c.perform m :=
  
  deaf_of_tandem fun h => tandem_perform h m

theorem deaf_record (p : Pending) (report : FlushReport) (result : Except Error Unit) :
    Deaf fun c : Coordinator ο σ => record p report result c := by
  intro c s j
  unfold record
  cases result with
  | ok _ => exact ⟨j, rfl⟩
  | error error =>
    dsimp only
    split <;> exact ⟨_, rfl⟩

theorem deaf_applyAll (ps : List Pending) (report : FlushReport) :
    Deaf fun c : Coordinator ο σ => applyAll ps report c := by
  induction ps generalizing report with
  | nil => exact fun c s j => ⟨j, rfl⟩
  | cons p ps ih =>
    intro c s j
    obtain ⟨j', hone⟩ := (deaf_perform p.mutation).under c s j
    simp only [applyAll, hone]
    generalize c.perform p.mutation = x
    obtain ⟨result, d⟩ := x
    cases result with
    | error overflow => exact ⟨j', rfl⟩
    | ok result =>
      exact ((deaf_record p report result).bind (g := fun report => applyAll ps report) ih) d s j'

theorem deaf_flush : Deaf fun c : Coordinator ο σ => c.flush := by
  intro c s j
  cases hf : c.frame.flushed with
  | true => exact ⟨j, by simp [flush, hf, show (c.under s j).frame = c.frame from rfl]⟩
  | false =>
    obtain ⟨j', hreap⟩ := deaf_reap.under c.flushing s j
    obtain ⟨j'', hall⟩ :=
      (deaf_applyAll c.due { reaped := c.flushing.reap.1 }).under c.drained s j'
    have hdrained : (c.under s j).drained = c.drained.under s j' := by
      rw [drained, show (c.under s j).flushing = c.flushing.under s j from rfl, hreap]
      rfl
    have hdue : (c.under s j).due = c.due := by
      rw [due, show (c.under s j).flushing = c.flushing.under s j from rfl, hreap]
      rfl
    dsimp only
    rw [flush_eq hf, flush_eq (show (c.under s j).frame.flushed = false from hf), hdrained, hdue,
      show (c.under s j).flushing = c.flushing.under s j from rfl, hreap, hall]
    generalize applyAll c.due { reaped := c.flushing.reap.1 } c.drained = x
    obtain ⟨result, d⟩ := x
    cases result <;> exact ⟨_, rfl⟩

theorem deaf_flushOnce : Deaf fun c : Coordinator ο σ => c.flushOnce := by
  intro c s j
  cases hf : c.frame.flushed with
  | true => exact ⟨j, by simp [flushOnce, hf, show (c.under s j).frame = c.frame from rfl]⟩
  | false =>
    obtain ⟨j', hflush⟩ := deaf_flush.under c s j
    exact ⟨j', by simpa [flushOnce, hf, show (c.under s j).frame = c.frame from rfl] using hflush⟩

/-! ### Synchronization -/

theorem deaf_reportSynchronization (failure : Error) :
    Deaf fun c : Coordinator ο σ => ((), c.reportSynchronization failure) :=
  fun _ _ _ => ⟨_, rfl⟩

theorem deaf_syncRow (direction : Direction) (host : HostRef) (object : ο) (row : Row) :
    Deaf fun c : Coordinator ο σ => c.syncRow direction host object row := by
  intro c s j
  obtain ⟨k, hk⟩ := c.table.synchronize_journaled direction row.handle object row c.journal j
  refine ⟨k, ?_⟩
  simp only [syncRow, show (c.under s j).table = c.table from rfl,
    show (c.under s j).journal = j from rfl, hk]
  rfl

theorem deaf_synchronize (h : Handle) (direction : Direction) :
    Deaf fun c : Coordinator ο σ => c.synchronize h direction := by
  intro c s j
  simp only [synchronize, show (c.under s j).registry = c.registry from rfl,
    show (c.under s j).hosts = c.hosts from rfl, show (c.under s j).world = c.world from rfl]
  cases c.registry.bound h with
  | error error => exact ⟨j, rfl⟩
  | ok entry =>
    dsimp only
    cases c.hosts.find? entry.host with
    | none => exact ⟨j, rfl⟩
    | some object =>
      dsimp only
      cases c.world.row? h with
      | none => exact ⟨j, rfl⟩
      | some row =>
        exact (deaf_syncRow direction entry.host object row).followed Except.ok
          (fun report => Deaf.foldl deaf_reportSynchronization report.failures) c s j

theorem deaf_visit (direction : Direction) (report : SyncReport) (h : Handle) :
    Deaf fun c : Coordinator ο σ => visit direction (report, c) h := by
  intro c s j
  simp only [visit, show (c.under s j).registry = c.registry from rfl,
    show (c.under s j).hosts = c.hosts from rfl, show (c.under s j).world = c.world from rfl]
  split
  · rename_i host row _ _
    split
    · rename_i object _
      exact (deaf_syncRow direction host object row).bind
        (g := fun told c => (report.merge told, c)) (fun told c s j => ⟨j, rfl⟩) c s j
    · exact ⟨j, rfl⟩
  · exact ⟨j, rfl⟩

theorem deaf_foldl_visit (direction : Direction) (hs : List Handle) (report : SyncReport) :
    Deaf fun c : Coordinator ο σ => hs.foldl (visit direction) (report, c) := by
  induction hs generalizing report with
  | nil => exact fun c s j => ⟨j, rfl⟩
  | cons h hs ih => exact (deaf_visit direction report h).bind ih

theorem deaf_visitAll (direction : Direction) :
    Deaf fun c : Coordinator ο σ => c.visitAll direction :=
  fun c s j => deaf_foldl_visit direction c.boundRows {} c.synchronizing s j

theorem deaf_synchronizeAll (direction : Direction) :
    Deaf fun c : Coordinator ο σ => c.synchronizeAll direction := by
  simp only [synchronizeAll_eq]
  exact (deaf_visitAll direction).followed id fun report =>
    Deaf.foldl deaf_reportSynchronization report.failures

/-! ### Signals -/

theorem deaf_publish (s : Signal) : Deaf fun c : Coordinator ο σ => c.publish s := by
  intro c settings j
  obtain ⟨j', hone⟩ := deaf_publishAt c.view maxNesting .lifecycle s c.delivery j
  refine ⟨j', ?_⟩
  simp only [publish, Tether.publish, show (c.under settings j).view = c.view from rfl,
    show (c.under settings j).delivery = c.delivery.journaled j from rfl, hone]
  rfl

theorem deaf_publishAll (ss : List Signal) :
    Deaf fun c : Coordinator ο σ => publishAll ss c := by
  induction ss with
  | nil => exact fun c s j => ⟨j, rfl⟩
  | cons s ss ih =>
    intro c settings j
    obtain ⟨j', hone⟩ := (deaf_publish s).under c settings j
    simp only [publishAll, hone]
    generalize c.publish s = x
    obtain ⟨reply, d⟩ := x
    cases reply with
    | error error => exact ⟨j', rfl⟩
    | ok failures =>
      obtain ⟨j'', hrest⟩ := ih.under d settings j'
      dsimp only
      rw [hrest]
      generalize publishAll ss d = y
      obtain ⟨reply, e⟩ := y
      cases reply <;> exact ⟨j'', rfl⟩

theorem deaf_contain (f : ListenerFailure) :
    Deaf fun c : Coordinator ο σ => ((), c.contain f) :=
  fun _ _ _ => ⟨_, rfl⟩

end Coordinator

namespace NamedSignals

variable {σ : Type}

/-- Raising with another journal. -/
def Raising.journaled (r : Raising σ) (j : Journal) : Raising σ := { r with journal := j }

theorem raise_journaled (name : String) (entities : List Handle) (r : Raising σ) (j : Journal) :
    ∃ j', raise name entities (r.journaled j) =
      ((raise name entities r).1, (raise name entities r).2.journaled j') := by
  unfold raise
  split <;> exact ⟨_, rfl⟩

theorem release_journaled (isLive : Handle → Bool) (count : Nat) (r : Raising σ) (d : Delayed)
    (j : Journal) : ∃ j', release isLive (count, r.journaled j) d =
      ((release isLive (count, r) d).1, (release isLive (count, r) d).2.journaled j') := by
  obtain ⟨j', hraise⟩ := raise_journaled d.name (d.entities.filter isLive) r j
  simp only [release, hraise]
  split <;> exact ⟨_, rfl⟩

theorem foldl_release_journaled (isLive : Handle → Bool) (ds : List Delayed) (count : Nat)
    (r : Raising σ) (j : Journal) : ∃ j', ds.foldl (release isLive) (count, r.journaled j) =
      ((ds.foldl (release isLive) (count, r)).1,
        (ds.foldl (release isLive) (count, r)).2.journaled j') := by
  induction ds generalizing count r j with
  | nil => exact ⟨j, rfl⟩
  | cons d ds ih =>
    obtain ⟨j', hone⟩ := release_journaled isLive count r d j
    rw [List.foldl_cons, List.foldl_cons, hone]
    exact ih _ _ j'

end NamedSignals

namespace Coordinator

variable {ο σ : Type} [HostObject ο]

theorem deaf_signal (name : String) (entities : List Handle) :
    Deaf fun c : Coordinator ο σ => c.signal name entities := by
  intro c s j
  obtain ⟨j', hraise⟩ := NamedSignals.raise_journaled name
    (entities.filter c.registry.isBound) c.raising j
  refine ⟨j', ?_⟩
  simp only [signal, show (c.under s j).raising = c.raising.journaled j from rfl,
    show (c.under s j).registry = c.registry from rfl, hraise]
  rfl

theorem deaf_tick : Deaf fun c : Coordinator ο σ => c.tick := by
  intro c s j
  obtain ⟨j', hall⟩ := NamedSignals.foldl_release_journaled c.registry.isBound
    (c.named.delayed.filter fun d => d.due.le c.frame.time) 0
    { c.raising with
      signals := { c.named with
        delayed := c.named.delayed.filter fun d => !d.due.le c.frame.time } } j
  refine ⟨j', ?_⟩
  exact congrArg (fun x : Nat × NamedSignals.Raising (Surroundings ο σ) =>
    (x.1, (c.under s j).afterRaising x.2)) hall

theorem deaf_dispatch : Deaf fun c : Coordinator ο σ => c.dispatch := by
  intro c s j
  obtain ⟨j', hall⟩ := (deaf_publishAll c.outbox.toList).under
    { c with frame := c.frame.enter .reaction, outbox := #[] } s j
  simp only [dispatch]
  rw [show publishAll (c.under s j).outbox.toList
    { c.under s j with frame := (c.under s j).frame.enter .reaction, outbox := #[] } = _ from hall]
  generalize publishAll c.outbox.toList
    { c with frame := c.frame.enter .reaction, outbox := #[] } = x
  obtain ⟨reply, d⟩ := x
  cases reply with
  | error error => exact ⟨j', rfl⟩
  | ok failures =>
    obtain ⟨j'', htick⟩ := deaf_tick.under d s j'
    obtain ⟨k, hcontain⟩ := (Deaf.foldl deaf_contain failures).under d.tick.2 s j''
    refine ⟨k, ?_⟩
    dsimp only
    rw [htick]
    dsimp only
    rw [(Prod.mk.inj hcontain).2]
    split <;> rfl

/-! ### Beginnings -/

omit [HostObject ο] in
theorem ofSettings_journal (bindings : List BindingSetting) (resolvers : Resolvers)
    (j j' : Journal) :
    (Table.ofSettings bindings resolvers j').1 = (Table.ofSettings bindings resolvers j).1 := by
  have hall (table : Table) : (Table.addSettings resolvers bindings table j').1 =
      (Table.addSettings resolvers bindings table j).1 := by
    induction bindings generalizing table j j' with
    | nil => rfl
    | cons b bindings ih =>
      unfold Table.addSettings
      cases b.policy.resolve resolvers with
      | error error => rfl
      | ok policy =>
        simp only [Table.addRule]
        generalize table.register (b.toRule policy) = x
        obtain ⟨result, table'⟩ := x
        cases result with
        | error error => rfl
        | ok id => exact ih _ _ table'
  exact hall {}

omit [HostObject ο] in
/-- Of settings with the same bindings either both are refused, for the same reason, or they make
the same coordinator but for settings and journal. -/
theorem ofSettings_under {s s' : Settings} (hb : s'.bindings = s.bindings)
    (resolvers : Resolvers) (surroundings : Surroundings ο σ) (j j' : Journal) :
    match (ofSettings s resolvers surroundings j : Except Error (Coordinator ο σ)) with
    | .error error => ofSettings s' resolvers surroundings j' = .error error
    | .ok c => ∃ k, ofSettings s' resolvers surroundings j' = .ok (c.under s' k) := by
  have htable := ofSettings_journal s.bindings resolvers j j'
  unfold ofSettings
  rw [hb]
  generalize Table.ofSettings s.bindings resolvers j = x at htable
  generalize Table.ofSettings s.bindings resolvers j' = y at htable
  obtain ⟨result, k⟩ := x
  obtain ⟨result', k'⟩ := y
  obtain rfl : result' = result := htable
  cases result' with
  | error error => rfl
  | ok table => exact ⟨k', rfl⟩

end Coordinator

end Tether
