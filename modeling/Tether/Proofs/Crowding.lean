import Tether.Proofs.Editing
import Tether.Proofs.Gathering

/-!
# Crowding

In a crowd nobody comes or goes, but both sides of every actor change in every frame : the host
moves it, and the entity world damages and renames some. `Crowd.endsInAgreement` says that every
frame ends with both sides of all four bindings matching, for every configuration and every
generator and as long as the clock does not run over. Where the host moved to, along the velocity of
the actor, is where the entity is, and the host has the name that the entity world wrote last.

What holds from one frame to the next is `Crowd.Sound`. The edits of both sides keep it
(`Crowd.Sound.hostUpdate`, `Crowd.Sound.ecsUpdate`), and the frame after them brings both sides
together (`Crowd.Sound.step`).
-/

set_option linter.unusedSectionVars false

namespace Tether

/-! ## What actors are bound by -/

/-- Where an actor is. -/
def positionBinding : Binding := ⟨transformCapability, ⟨0⟩, "Position", .bidirectional, .hostWins⟩

/-- Where an actor moves. -/
def velocityBinding : Binding := ⟨velocityCapability, ⟨1⟩, "Velocity", .hostToEcs, .hostWins⟩

/-- What an actor is called. -/
def nameBinding : Binding := ⟨nameCapability, ⟨2⟩, "Name", .ecsToHost, .hostWins⟩

theorem bindings_actorTable : actorTable.bindings =
    [positionBinding, velocityBinding, nameBinding,
      ⟨healthCapability, ⟨3⟩, "Health", .bidirectional, .merge "average" Resolver.average⟩] :=
  rfl

theorem separate_actorTable : actorTable.bindings.Pairwise Binding.Separate := by
  rw [bindings_actorTable]
  simp [Binding.Separate, positionBinding, velocityBinding, nameBinding, transformCapability,
    velocityCapability, nameCapability, healthCapability]

theorem position_mem : positionBinding ∈ actorTable.bindings := by simp [bindings_actorTable]

theorem velocity_mem : velocityBinding ∈ actorTable.bindings := by simp [bindings_actorTable]

theorem name_mem : nameBinding ∈ actorTable.bindings := by simp [bindings_actorTable]

/-- The components of the actors are numbered in the order of their rules. -/
theorem find?_actorTable : ∀ i (hi : i < 4), actorTable.components.find?
    (#["Position", "Velocity", "Name", "Health"][i]) = some (ComponentNames.numbered i) := by
  decide +kernel

/-- Every rule of the actors is a binding of their table, for the component of its name. -/
theorem exists_binding {rule : Rule} (h : rule ∈ actorRules) : ∃ b ∈ actorTable.bindings,
    b.capability = rule.capability ∧
      actorTable.components.find? rule.component = some b.component := by
  rw [actorRules] at h
  simp only [List.mem_cons, List.not_mem_nil, or_false] at h
  have hfind := find?_actorTable
  rw [bindings_actorTable]
  rcases h with rfl | rfl | rfl | rfl
  · exact ⟨_, .head _, rfl, hfind 0 (by decide)⟩
  · exact ⟨_, .tail _ (.head _), rfl, hfind 1 (by decide)⟩
  · exact ⟨_, .tail _ (.tail _ (.head _)), rfl, hfind 2 (by decide)⟩
  · exact ⟨_, .tail _ (.tail _ (.tail _ (.head _))), rfl, hfind 3 (by decide)⟩

namespace PropertyBag

/-- Who has a place and a velocity, which are vectors, can move. -/
def IsMobile (o : PropertyBag) : Prop := ∃ p₁ p₂ p₃ v₁ v₂ v₃,
  o.get? transformCapability = some (.vec3 p₁ p₂ p₃) ∧
    o.get? velocityCapability = some (.vec3 v₁ v₂ v₃)

/-- Who can move does so along the velocity, which stays. -/
theorem get?_advance {o : PropertyBag} {dt p₁ p₂ p₃ v₁ v₂ v₃ : Binary64}
    (hp : o.get? transformCapability = some (.vec3 p₁ p₂ p₃))
    (hv : o.get? velocityCapability = some (.vec3 v₁ v₂ v₃)) :
    (o.advance dt).get? transformCapability =
        some (.vec3 (p₁ + v₁ * dt) (p₂ + v₂ * dt) (p₃ + v₃ * dt)) ∧
      (o.advance dt).get? velocityCapability = some (.vec3 v₁ v₂ v₃) := by
  simp only [advance, hp, hv, get?_set, ↓reduceIte, true_and]
  exact if_neg (by decide)

theorem IsMobile.advance {o : PropertyBag} (h : o.IsMobile) (dt : Binary64) :
    (o.advance dt).IsMobile := by
  obtain ⟨_, _, _, _, _, _, hp, hv⟩ := h
  exact ⟨_, _, _, _, _, _, get?_advance hp hv⟩

end PropertyBag

namespace ActorFactory

variable {ρ : Type} [Generator ρ]

theorem actors_succ (n : Nat) (f : ActorFactory ρ) : f.actors (n + 1) =
    (f.actor.1 :: (f.actor.2.actors n).1, (f.actor.2.actors n).2) := by
  rw [actors]

/-- An actor has everything that the bindings ask for. -/
theorem isSome_actor (f : ActorFactory ρ) {b : Binding} (hb : b ∈ actorTable.bindings) :
    (f.actor.1.2.get? b.capability).isSome = true := by
  rw [bindings_actorTable] at hb
  simp only [List.mem_cons, List.not_mem_nil, or_false] at hb
  rcases hb with rfl | rfl | rfl | rfl <;> rfl

/-- What holds of an actor, whatever was made before, holds of all. -/
theorem forall_mem_actors {P : PropertyBag → Prop} (hone : ∀ f : ActorFactory ρ, P f.actor.1.2)
    (count : Nat) (f : ActorFactory ρ) : ∀ a ∈ (f.actors count).1, P a.2 := by
  induction count generalizing f with
  | zero => simp [actors]
  | succ count ih =>
    rw [actors_succ]
    intro a ha
    rcases List.mem_cons.mp ha with rfl | ha
    · exact hone f
    · exact ih f.actor.2 a ha

theorem isMobile_actors (count : Nat) (f : ActorFactory ρ) :
    ∀ a ∈ (f.actors count).1, a.2.IsMobile :=
  forall_mem_actors (fun _ => ⟨_, _, _, _, _, _, rfl, rfl⟩) count f

theorem isSome_actors (count : Nat) (f : ActorFactory ρ) :
    ∀ a ∈ (f.actors count).1, ∀ b ∈ actorTable.bindings, (a.2.get? b.capability).isSome = true :=
  forall_mem_actors (P := fun o => ∀ b ∈ actorTable.bindings, (o.get? b.capability).isSome = true)
    (fun f _ hb => f.isSome_actor hb) count f

end ActorFactory

/-- Who moves has the same properties as before. -/
theorem PropertyBag.isSome_advance (dt : Binary64) (o : PropertyBag) (c : Capability) :
    ((o.advance dt).get? c).isSome = (o.get? c).isSome := by
  unfold advance
  split
  · rename_i htransform _
    rw [get?_set]
    split
    · rename_i hc
      rw [hc, htransform]
      rfl
    · rfl
  · rfl

namespace Stage

/-- The value that a host object has under a capability. -/
def property? (c : Stage) (ref : HostRef) (capability : Capability) : Option Value :=
  (c.hosts.find? ref).bind fun object => object.get? capability

/-- The host object of an entity and its component, of a rule, have values that match. -/
def Agrees (c : Stage) (h : Handle) (ref : HostRef) (rule : Rule) : Prop :=
  ∃ id x y, c.componentId? rule.component = some id ∧ c.property? ref rule.capability = some x ∧
    c.component? h id = some y ∧ x.Matches y

theorem property?_of_find? {c : Stage} {ref : HostRef} {object : PropertyBag}
    (h : c.hosts.find? ref = some object) (capability : Capability) :
    c.property? ref capability = object.get? capability := by
  rw [property?, h, Option.bind_some]

theorem property?_of_holds {c : Stage} {b : Binding} {h : Handle} {ref : HostRef} {x : Value}
    {cell : Cell} (hh : c.Holds b h x cell) (href : c.registry.resolve? h = some ref) :
    c.property? ref b.capability = some x := by
  obtain ⟨ref', object, href', hobject, hx⟩ := hh.property
  obtain rfl := Option.some.inj (href.symm.trans href')
  rw [property?_of_find? hobject]
  exact hx

/-- A host object that is bound has the same properties when it is moved. -/
theorem exists_advanced {c : Stage} {b : Binding} {h : Handle} {ref : HostRef} {x : Value}
    {cell : Cell} (hh : c.Holds b h x cell) (href : c.registry.resolve? h = some ref)
    (dt : Binary64) : ∃ object x', c.hosts.find? ref = some object ∧
      (object.advance dt).get? b.capability = some x' := by
  obtain ⟨ref', object, href', hobject, hx⟩ := hh.property
  obtain rfl := Option.some.inj (href.symm.trans href')
  have hsome := object.isSome_advance dt b.capability
  rw [hx] at hsome
  obtain ⟨x', hx'⟩ := Option.isSome_iff_exists.mp hsome
  exact ⟨object, x', hobject, hx'⟩

end Stage

namespace Crowd

variable {ρ : Type} [Generator ρ]

/-! ## What both sides do -/

/-- What holds of a crowd from one frame to the next. -/
structure Sound (config : CrowdConfig) (time : Nat) (actors : List HostRef) (s : Crowd ρ) :
    Prop where
  config_eq : s.config = config
  actors_eq : s.actors = actors
  health : s.health = some ⟨3⟩
  name : s.name = some ⟨2⟩
  size : actors.length = config.population
  ids : (actors.map HostRef.id).Nodup
  rest : s.stage.AtRest
  waiting : s.stage.waiting = []
  time_eq : s.stage.frame.time.nanos = time
  houses : s.stage.Houses actors
  holds : s.stage.hosts.Holds actors
  table : s.stage.table = actorTable
  equipped : s.stage.Equipped
  mobile : ∀ ref ∈ actors, ∃ object, s.stage.hosts.find? ref = some object ∧ object.IsMobile
  capacity : s.stage.registry.allocator.capacity ≤ config.population

/-- The names that are given, one after another, from the `i`-th on. -/
def renamings (handles : Array Handle) (frame : Nat) :
    Nat → Nat → ρ → List (Handle × Value)
  | 0, _, _ => []
  | n + 1, i, stream =>
    ((handles[(Generator.below stream handles.size).1]?).getD default,
        .text ("renamed-" ++ toString frame ++ "-" ++ toString i)) ::
      renamings handles frame n (i + 1) (Generator.below stream handles.size).2

/-- The entities that there are. -/
def entities (s : Crowd ρ) : Array Handle := (s.stage.world.toList.map Row.handle).toArray

/-- The crowd when the entity world did the damage of an update. -/
def damaged (s : Crowd ρ) (health : ComponentId) : Crowd ρ :=
  damage s.entities health (portion s.entities.size s.config.damaged) s

/-- The names that the entity world gives in an update. -/
def renames (s : Crowd ρ) : List (Handle × Value) :=
  match s.health with
  | none => []
  | some health =>
    if s.entities.isEmpty then []
    else
      renamings s.entities s.frame (portion s.entities.size s.config.renamed) 0
        (s.damaged health).factory.stream

theorem pick_eq (handles : Array Handle) (s : Crowd ρ) : pick handles s =
    ((handles[(Generator.below s.factory.stream handles.size).1]?).getD default,
      { s with factory := { s.factory with
          stream := (Generator.below s.factory.stream handles.size).2 } }) := by
  rw [pick]

theorem damage_eq (handles : Array Handle) (health : ComponentId) (n : Nat) (s : Crowd ρ) :
    ∃ factory writes, damage handles health n s =
      { s with factory, stage := s.stage.writeAll health writes } := by
  induction n generalizing s with
  | zero => exact ⟨s.factory, [], by rw [damage]; rfl⟩
  | succ n ih =>
    rw [damage, pick_eq]
    generalize (Generator.below s.factory.stream handles.size).2 = stream
    generalize (handles[(Generator.below s.factory.stream handles.size).1]?).getD default = h
    dsimp only
    split
    · rename_i hp _
      obtain ⟨factory, writes, hrest⟩ := ih { s with
        factory := { s.factory with stream }
        stage := (s.stage.writeComponent h health (.float (hit hp))).2 }
      exact ⟨factory, (h, .float (hit hp)) :: writes, hrest⟩
    · exact ih { s with factory := { s.factory with stream } }

theorem rename_eq (handles : Array Handle) (name : ComponentId) (n i : Nat) (s : Crowd ρ) :
    ∃ factory, rename handles name n i s = { s with
      factory
      stage := s.stage.writeAll name (renamings handles s.frame n i s.factory.stream) } := by
  induction n generalizing i s with
  | zero => exact ⟨s.factory, by rw [rename, renamings]; rfl⟩
  | succ n ih =>
    rw [rename, pick_eq, renamings]
    generalize (Generator.below s.factory.stream handles.size).2 = stream
    generalize (handles[(Generator.below s.factory.stream handles.size).1]?).getD default = h
    exact ih (i + 1) { s with
      factory := { s.factory with stream }
      stage := (s.stage.writeComponent h name _).2 }

/-- The entity world writes the health of some and the names of others. -/
theorem ecsUpdate_eq {s : Crowd ρ} {health name : ComponentId} (hhealth : s.health = some health)
    (hname : s.name = some name) : ∃ factory writes, s.ecsUpdate = { s with
      factory, stage := (s.stage.writeAll health writes).writeAll name s.renames } := by
  have hupdate : s.ecsUpdate = if s.entities.isEmpty then s
      else rename s.entities name (portion s.entities.size (s.damaged health).config.renamed) 0
        (s.damaged health) := by
    simp only [ecsUpdate, hhealth, hname]
    rfl
  have hrenames : s.renames = if s.entities.isEmpty then []
      else renamings s.entities s.frame (portion s.entities.size s.config.renamed) 0
        (s.damaged health).factory.stream := by
    simp only [renames, hhealth]
  obtain ⟨factory, writes, hdamage⟩ :=
    damage_eq s.entities health (portion s.entities.size s.config.damaged) s
  have hdamaged : s.damaged health = _ := hdamage
  rw [hdamaged] at hupdate hrenames
  rw [hupdate, hrenames]
  split
  · exact ⟨s.factory, [], rfl⟩
  · obtain ⟨factory', hrename⟩ := rename_eq s.entities name
      (portion s.entities.size s.config.renamed) 0
      { s with factory, stage := s.stage.writeAll health writes }
    exact ⟨factory', writes, hrename⟩

/-- The report of a frame that visits the whole crowd, in which nobody comes or goes and nothing
fails. -/
structure Quiet (config : CrowdConfig) (whole : FrameReport) : Prop where
  flush : whole.flush = {}
  entities : whole.sync.entities = config.population
  clean : whole.sync.failures = []
  failures : whole.dispatch.failures = []

/-! ## The edits keep what holds -/

section Sound

variable {config : CrowdConfig} {time : Nat} {actors : List HostRef} {s : Crowd ρ}
  (h : s.Sound config time actors)
include h

/-- No two entities have one host object. -/
theorem Sound.apart : s.stage.Apart := by
  intro i j ref ref' hi hj haddress
  have hin := (h.houses ref).mp ⟨i, hi⟩
  have hin' := (h.houses ref').mp ⟨j, hj⟩
  obtain rfl := List.inj_on_of_nodup_map h.holds.apart hin hin' haddress
  have hlookup := (Coordinator.lookup?_iff_resolve? h.rest.consistent).mpr ⟨ref, hi, rfl⟩
  have hlookup' := (Coordinator.lookup?_iff_resolve? h.rest.consistent).mpr ⟨ref, hj, rfl⟩
  exact Option.some.inj (hlookup.symm.trans hlookup')

/-- The host moves every actor, and what an entity holds is as before but for that. -/
theorem Sound.hostUpdate : s.hostUpdate.Sound config time actors ∧
    s.hostUpdate.stage.registry = s.stage.registry ∧
    ∀ {b j x cell ref object x'}, s.stage.Holds b j x cell →
      s.stage.registry.resolve? j = some ref → s.stage.hosts.find? ref = some object →
      (object.advance config.delta.toSeconds).get? b.capability = some x' →
        s.hostUpdate.stage.Holds b j x' cell := by
  obtain ⟨hosts, hstate, halike, hcells⟩ := Stage.foldl_editActor
    (PropertyBag.advance config.delta.toSeconds) h.rest.owned h.holds.apart
  rw [← h.config_eq, ← h.actors_eq] at hstate
  have hupdate : s.hostUpdate = { s with stage := s.stage.setHosts hosts } :=
    congrArg (fun stage => { s with stage }) hstate
  rw [hupdate]
  have hmoved : ∀ {b j x cell ref object x'}, s.stage.Holds b j x cell →
      s.stage.registry.resolve? j = some ref → s.stage.hosts.find? ref = some object →
      (object.advance config.delta.toSeconds).get? b.capability = some x' →
        Coordinator.Holds b j x' cell (s.stage.setHosts hosts) := by
    intro b j x cell ref object x' hh href hobject hx
    refine hh.edited href hobject ((hcells ref.address).trans (if_pos ?_)) hx
    exact List.mem_map_of_mem ((h.houses ref).mp ⟨j, href⟩)
  refine ⟨{ h with
    rest := h.rest.setHosts (halike.allOwned h.rest.owned)
    holds := h.holds.alike halike
    equipped := fun j ref href b hb => ?_
    mobile := fun ref href => ?_ }, rfl, hmoved⟩
  case refine_2 =>
    obtain ⟨object, hobject, hmobile⟩ := h.mobile ref href
    obtain ⟨cell, hcell, rfl⟩ := Option.map_eq_some_iff.mp hobject
    refine ⟨_, ?_, hmobile.advance config.delta.toSeconds⟩
    show (hosts.cells.get? ref.address).map HostCell.object = _
    rw [hcells, if_pos (List.mem_map_of_mem href), hcell]
    rfl
  obtain ⟨x, cell, hh⟩ := h.equipped j ref href b hb
  obtain ⟨object, x', hobject, hx'⟩ := Stage.exists_advanced hh href config.delta.toSeconds
  exact ⟨x', cell, hmoved hh href hobject hx'⟩

/-- The entity world writes components, and the names last. -/
theorem Sound.ecsUpdate : s.ecsUpdate.Sound config time actors ∧
    s.ecsUpdate.stage.registry = s.stage.registry ∧
    ∀ {b j x cell}, s.stage.Holds b j x cell →
      ∃ cell', s.ecsUpdate.stage.Holds b j x cell' ∧
        (b.component = ⟨2⟩ → cell'.value = Coordinator.lastWritten j cell.value s.renames) := by
  obtain ⟨factory, writes, hupdate⟩ := ecsUpdate_eq h.health h.name
  obtain ⟨⟨world, hfirst⟩, hkept⟩ := Coordinator.writeAll_eq ⟨3⟩ s.stage writes
  obtain ⟨⟨world', hsecond⟩, hkept'⟩ :=
    Coordinator.writeAll_eq ⟨2⟩ (s.stage.writeAll ⟨3⟩ writes) s.renames
  have hwritten : ∀ {b j x cell}, s.stage.Holds b j x cell →
      ∃ cell', ((s.stage.writeAll ⟨3⟩ writes).writeAll ⟨2⟩ s.renames).Holds b j x cell' ∧
        (b.component = ⟨2⟩ → cell'.value = Coordinator.lastWritten j cell.value s.renames) := by
    intro b j x cell hh
    refine ⟨_, (hh.writeAll ⟨3⟩ writes).writeAll ⟨2⟩ s.renames, fun hb => ?_⟩
    simp [hb]
  rw [hupdate]
  have hstage : (s.stage.writeAll ⟨3⟩ writes).writeAll ⟨2⟩ s.renames =
      { s.stage with world := world' } := by rw [hsecond, hfirst]
  have hp := hkept' (hkept h.rest.consistent)
  generalize (s.stage.writeAll ⟨3⟩ writes).writeAll ⟨2⟩ s.renames = d at hwritten hstage hp
  subst hstage
  refine ⟨{ h with
    rest := { h.rest with consistent := hp }
    equipped := fun j ref href b hb => ?_ }, rfl, hwritten⟩
  obtain ⟨x, cell, hh⟩ := h.equipped j ref href b hb
  obtain ⟨cell', hh', -⟩ := hwritten hh
  exact ⟨x, cell', hh'⟩

/-- Where both sides are brought together, who could move still can : place and velocity are for the
host alone to change. -/
theorem Sound.mobile_of_reconciled {d : Stage} (hregistry : d.registry = s.stage.registry)
    (hholds : ∀ b ∈ actorTable.bindings, ∀ {j x cell}, s.stage.Holds b j x cell →
      d.Holds b j (b.reconciled b.direction x cell).1 (b.reconciled b.direction x cell).2) :
    ∀ ref ∈ actors, ∃ object, d.hosts.find? ref = some object ∧ object.IsMobile := by
  have hkept : ∀ b ∈ actorTable.bindings, (∀ x cell, Pass.target b x cell = x) → ∀ {j ref x},
      s.stage.registry.resolve? j = some ref →
      s.stage.property? ref b.capability = some x →
      Stage.property? d ref b.capability = some x := by
    intro b hb hpicks j ref x href hx
    obtain ⟨y, cell, hh⟩ := h.equipped j ref href b (h.table ▸ hb)
    obtain rfl := Option.some.inj (hx.symm.trans (Stage.property?_of_holds hh href))
    have hafter := hholds b hb hh
    rw [Binding.reconciled_of_host _ (hpicks x cell)] at hafter
    exact Stage.property?_of_holds hafter (hregistry ▸ href)
  intro ref href
  obtain ⟨j, hj⟩ := (h.houses ref).mpr href
  obtain ⟨object, hobject, p₁, p₂, p₃, v₁, v₂, v₃, hp, hv⟩ := h.mobile ref href
  have hplace := hkept _ position_mem (fun _ _ => rfl) hj
    ((Stage.property?_of_find? hobject _).trans hp)
  have hvelocity := hkept _ velocity_mem (fun _ _ => rfl) hj
    ((Stage.property?_of_find? hobject _).trans hv)
  obtain ⟨object', hobject', hp'⟩ := Option.bind_eq_some_iff.mp hplace
  exact ⟨object', hobject', _, _, _, _, _, _, hp',
    (Stage.property?_of_find? hobject' _).symm.trans hvelocity⟩

/-- The frame brings both sides together. -/
theorem Sound.step (hpop : config.population < 2 ^ 32)
    (htime : time + config.delta.nanos < Duration.limit) :
    ∃ whole s', s.step = (.ok (.ok whole), s') ∧ Quiet config whole ∧
      s'.Sound config (time + config.delta.nanos) actors ∧
      s'.stage.registry = s.stage.registry ∧
      ∀ b ∈ actorTable.bindings, ∀ {j x cell}, s.stage.Holds b j x cell →
        s'.stage.Holds b j (b.reconciled b.direction x cell).1
          (b.reconciled b.direction x cell).2 := by
  have hsize := h.size
  have hcapacity := h.capacity
  obtain ⟨frame, hadvance, htime'⟩ :
      ∃ g, s.stage.frame.advance config.delta = .ok g ∧ g.time.nanos = _ :=
    Frame.exists_advance (by rwa [h.time_eq])
  obtain ⟨whole, d, hstep, hall⟩ := h.rest.reconciles h.houses h.ids (fun ref => h.holds.alive)
    h.waiting h.apart (by omega) (by omega) hadvance
  have hholds : ∀ b ∈ actorTable.bindings, ∀ {j x cell}, s.stage.Holds b j x cell →
      d.Holds b j (b.reconciled b.direction x cell).1 (b.reconciled b.direction x cell).2 :=
    fun b hb {_ _ _} hh => hall.holds (h.table ▸ Binding.alone_of_mem separate_actorTable hb) hh
  refine ⟨whole, { s with stage := d }, ?_, ⟨hall.flush, ?_, hall.clean, hall.failures⟩, ?_,
    hall.registry, hholds⟩
  · rw [Crowd.step, h.config_eq, hstep]
  · rw [hall.entities, h.houses.size_eq h.rest.consistent (List.Nodup.of_map _ h.ids), h.size]
  · have hhouses : d.Houses actors := fun ref => hall.registry ▸ h.houses ref
    have hequipped : d.Equipped := fun j ref href b hb => by
      rw [hall.table, h.table] at hb
      rw [hall.registry] at href
      obtain ⟨x, cell, hh⟩ := h.equipped j ref href b (h.table ▸ hb)
      exact ⟨_, _, hholds b hb hh⟩
    exact { h with
      rest := hall.rest
      waiting := hall.waiting
      time_eq := by rw [hall.time, htime', h.time_eq]
      houses := hhouses
      holds := h.holds.alike hall.hosts
      table := hall.table.trans h.table
      equipped := hequipped
      mobile := h.mobile_of_reconciled hall.registry hholds
      capacity := by
        show d.registry.allocator.capacity ≤ _
        rw [hall.registry]
        exact h.capacity }

/-- Both sides of a binding after the edits of the host and of the entity world : the property is
the one that the actor has when it is moved, and a name is the one that was written last. -/
theorem Sound.edited {j : Handle} {ref : HostRef} (href : s.stage.registry.resolve? j = some ref)
    {b : Binding} (hb : b ∈ actorTable.bindings) :
    ∃ object x x' cell cell', s.stage.hosts.find? ref = some object ∧ s.stage.Holds b j x cell ∧
      (object.advance config.delta.toSeconds).get? b.capability = some x' ∧
      s.hostUpdate.ecsUpdate.stage.Holds b j x' cell' ∧ (b.component = ⟨2⟩ →
        cell'.value = Coordinator.lastWritten j cell.value s.hostUpdate.renames) := by
  obtain ⟨hhost, -, hmoves⟩ := h.hostUpdate
  obtain ⟨-, -, hwrites⟩ := hhost.ecsUpdate
  obtain ⟨x, cell, hh⟩ := h.equipped j ref href b (h.table ▸ hb)
  obtain ⟨object, x', hobject, hx'⟩ := Stage.exists_advanced hh href config.delta.toSeconds
  obtain ⟨cell', hh', hname⟩ := hwrites (hmoves hh href hobject hx')
  exact ⟨object, x, x', cell, cell', hobject, hh, hx', hh', hname⟩

/-- What an update comes to. -/
structure Updates (s s' : Crowd ρ) : Prop where
  registry : s'.stage.registry = s.stage.registry
  agreement : ∀ j ref, s.stage.registry.resolve? j = some ref → ∀ b ∈ actorTable.bindings,
    ∃ x cell, s'.stage.Holds b j x cell ∧ x.Matches cell.value
  moved : ∀ j ref, s.stage.registry.resolve? j = some ref → ∃ p₁ p₂ p₃ v₁ v₂ v₃ x cell,
    s.stage.property? ref transformCapability = some (.vec3 p₁ p₂ p₃) ∧
    s.stage.property? ref velocityCapability = some (.vec3 v₁ v₂ v₃) ∧
    x = .vec3 (p₁ + v₁ * s.config.delta.toSeconds) (p₂ + v₂ * s.config.delta.toSeconds)
      (p₃ + v₃ * s.config.delta.toSeconds) ∧
    s'.stage.Holds positionBinding j x cell ∧ x.Matches cell.value
  named : ∀ j ref, s.stage.registry.resolve? j = some ref → ∃ v x cell,
    s.stage.component? j nameBinding.component = some v ∧
    Coordinator.lastWritten j v s.hostUpdate.renames = cell.value ∧
    s'.stage.Holds nameBinding j x cell ∧ x.Matches cell.value

theorem Sound.update (hpop : config.population < 2 ^ 32)
    (htime : time + config.delta.nanos < Duration.limit) :
    ∃ whole s', s.update = (.ok (.ok whole), s') ∧ Quiet config whole ∧
      s'.Sound config (time + config.delta.nanos) actors ∧ s.Updates s' := by
  obtain ⟨hhost, hregistry, -⟩ := h.hostUpdate
  obtain ⟨hecs, hregistry', -⟩ := hhost.ecsUpdate
  obtain ⟨whole, t, hstep, hquiet, hsound, hregistry'', hmeets⟩ := hecs.step hpop htime
  refine ⟨whole, { t with frame := t.frame + 1 }, ?_, hquiet, { hsound with }, ?_⟩
  · rw [Crowd.update, hstep]
  refine ⟨hregistry''.trans (hregistry'.trans hregistry), fun j ref href b hb => ?_,
    fun j ref href => ?_, fun j ref href => ?_⟩
  · obtain ⟨-, -, x', -, cell', -, -, -, hh, -⟩ := h.edited href hb
    exact ⟨_, _, hmeets b hb hh, b.meets_reconciled x' cell'⟩
  · obtain ⟨object, -, x', -, cell', hobject, -, hx', hh, -⟩ := h.edited href position_mem
    obtain ⟨object', hobject', _, _, _, _, _, _, hp, hv⟩ :=
      h.mobile ref ((h.houses ref).mp ⟨j, href⟩)
    obtain rfl := Option.some.inj (hobject.symm.trans hobject')
    have hmoved := Option.some.inj (hx'.symm.trans (PropertyBag.get?_advance hp hv).1)
    have hafter := hmeets _ position_mem hh
    have hmatches := positionBinding.meets_reconciled x' cell'
    rw [Binding.reconciled_of_host _ rfl] at hafter hmatches
    exact ⟨_, _, _, _, _, _, x', _, (Stage.property?_of_find? hobject _).trans hp,
      (Stage.property?_of_find? hobject _).trans hv, h.config_eq ▸ hmoved, hafter, hmatches⟩
  · obtain ⟨-, x, x', cell, cell', -, hbefore, -, hh, hname⟩ := h.edited href name_mem
    refine ⟨cell.value, _, _, hbefore.component?, ?_, hmeets _ name_mem hh,
      nameBinding.meets_reconciled x' cell'⟩
    rw [Binding.reconciled_of_entity _ rfl, hname rfl]

end Sound

/-! ## From the setup on -/

/-- The crowd after its setup and so many updates. -/
def after (ρ : Type) [Generator ρ] (config : CrowdConfig) : Nat → Crowd ρ
  | 0 => (ofConfig config ρ).setup.2
  | n + 1 => (after ρ config n).update.2

variable (ρ) in
/-- The setup makes the actors and binds all of them. -/
theorem sound_setup {config : CrowdConfig} (hpop : config.population < 2 ^ 32) :
    ∃ s, (ofConfig config ρ).setup = (.ok (.ok {}), s) ∧ s.Sound config 0 s.actors := by
  have hmade : (ActorFactory.ofSeed config.seed ρ).Made 0 := rfl
  obtain ⟨hnumbers, -⟩ := ActorFactory.ids_actors hmade config.population
  have hproperties := (ActorFactory.ofSeed config.seed ρ).isSome_actors config.population
  have hmobile := (ActorFactory.ofSeed config.seed ρ).isMobile_actors config.population
  rw [setup]
  dsimp only [ofConfig]
  generalize (ActorFactory.ofSeed config.seed ρ).actors config.population = made at *
  obtain ⟨fresh, factory⟩ := made
  dsimp only at *
  have henters := Stage.enters_enter fresh (Stage.new config.workers)
  generalize Stage.enter fresh (Stage.new config.workers) = entered at *
  obtain ⟨refs, c⟩ := entered
  dsimp only at henters ⊢
  -- the actors are there, and nobody is bound yet
  have hids : refs.map HostRef.id = _ := henters.ids.trans hnumbers
  have hsize : refs.length = config.population := by simpa using congrArg List.length hids
  have hdistinct : (refs.map HostRef.id).Nodup := hids ▸ nodup_actorIds 0 (by omega)
  have hholds : c.hosts.Holds refs := henters.holds [] Hosts.holds_empty
  have hrest : c.AtRest := by
    rw [henters.state]
    exact (Stage.atRest_new config.workers).setHosts hholds.allOwned
  have hnobody : c.Houses [] := by
    rw [henters.state]
    exact Stage.houses_new config.workers
  have htable : c.table = actorTable := by
    rw [henters.state]
    rfl
  have hcapacity : c.registry.allocator.capacity = 0 := by
    rw [henters.state]
    rfl
  have hsuits : ∀ ref ∈ refs, c.Suits ref := fun ref href => by
    obtain ⟨bag, hin, hfind⟩ := henters.found ref href
    exact ⟨bag, hfind, htable ▸ hproperties _ hin⟩
  obtain ⟨d, hbind, hall⟩ := Stage.gathered_bindAll hrest hnobody (htable ▸ separate_actorTable)
    (by omega) (by omega) hsuits hdistinct
  rw [hbind]
  have htable' : d.table = actorTable := hall.table.trans htable
  refine ⟨_, rfl, rfl, rfl, ?_, ?_, hsize, hdistinct, hall.rest, ?_, ?_, hall.houses,
    hholds.alike hall.hosts, htable', hall.equipped, fun ref href => ?_, ?_⟩
  · show d.table.components.find? _ = _
    rw [htable']
    exact find?_actorTable 3 (by decide)
  · show d.table.components.find? _ = _
    rw [htable']
    exact find?_actorTable 2 (by decide)
  · rw [hall.waiting, henters.state]
    rfl
  · rw [hall.time, henters.state]
    rfl
  · obtain ⟨bag, hin, hfind⟩ := henters.found ref href
    refine ⟨bag, ?_, hmobile _ hin⟩
    show (d.hosts.cells.get? ref.address).map HostCell.object = _
    rw [hall.cells]
    exact hfind
  · have hle := hall.capacity
    show d.registry.allocator.capacity ≤ _
    omega

/-- From one frame to the next the same actors are there. -/
theorem sound_after {config : CrowdConfig} {n k : Nat} (hpop : config.population < 2 ^ 32)
    (hclock : n * config.delta.nanos < Duration.limit) (hk : k ≤ n) :
    (after ρ config k).Sound config (k * config.delta.nanos) (after ρ config 0).actors := by
  induction k with
  | zero =>
    obtain ⟨s, hsetup, hsound⟩ := sound_setup ρ hpop
    have hafter : after ρ config 0 = s := congrArg Prod.snd hsetup
    rw [hafter, Nat.zero_mul]
    exact hsound
  | succ k ih =>
    have htime := Nat.mul_le_mul_right config.delta.nanos hk
    rw [Nat.succ_mul] at htime ⊢
    obtain ⟨whole, s', hupdate, -, hsound, -⟩ := (ih (by omega)).update hpop (by omega)
    have hafter : after ρ config (k + 1) = s' := congrArg Prod.snd hupdate
    rw [hafter]
    exact hsound

/-- A crowd ends every frame in agreement : what its setup and so many updates come to. -/
structure EndsInAgreement (ρ : Type) [Generator ρ] (config : CrowdConfig) (n : Nat) : Prop where
  setup : (ofConfig config ρ).setup.1 = .ok (.ok {})
  /-- The whole crowd is bound, and stays so under the handles of the setup. -/
  size : (after ρ config 0).actors.length = config.population
  actors : ∀ k ≤ n, (after ρ config k).actors = (after ρ config 0).actors
  houses : ∀ k ≤ n, (after ρ config k).stage.Houses (after ρ config 0).actors
  handles : ∀ k ≤ n, ∀ h, (after ρ config k).stage.registry.resolve? h =
    (after ρ config 0).stage.registry.resolve? h
  update : ∀ k < n, ∃ whole, (after ρ config k).update.1 = .ok (.ok whole) ∧ Quiet config whole
  agreement : ∀ k < n, ∀ h ref, (after ρ config (k + 1)).stage.registry.resolve? h = some ref →
    ∀ rule ∈ actorRules, (after ρ config (k + 1)).stage.Agrees h ref rule
  /-- An actor is where its velocity takes it in one frame from where it was before, and so is its
  entity. -/
  moved : ∀ k < n, ∀ h ref, (after ρ config k).stage.registry.resolve? h = some ref →
    ∃ id p₁ p₂ p₃ v₁ v₂ v₃ x y, (after ρ config k).stage.componentId? "Position" = some id ∧
    (after ρ config k).stage.property? ref transformCapability = some (.vec3 p₁ p₂ p₃) ∧
    (after ρ config k).stage.property? ref velocityCapability = some (.vec3 v₁ v₂ v₃) ∧
    x = .vec3 (p₁ + v₁ * config.delta.toSeconds) (p₂ + v₂ * config.delta.toSeconds)
      (p₃ + v₃ * config.delta.toSeconds) ∧
    (after ρ config (k + 1)).stage.property? ref transformCapability = some x ∧
    (after ρ config (k + 1)).stage.component? h id = some y ∧ x.Matches y
  /-- The name of an entity is the one that the entity world wrote last, and its host object has the
  same. -/
  named : ∀ k < n, ∀ h ref, (after ρ config k).stage.registry.resolve? h = some ref →
    ∃ id v x y, (after ρ config k).stage.componentId? "Name" = some id ∧
    (after ρ config k).stage.component? h id = some v ∧
    Coordinator.lastWritten h v (after ρ config k).hostUpdate.renames = y ∧
    (after ρ config (k + 1)).stage.component? h id = some y ∧
    (after ρ config (k + 1)).stage.property? ref nameCapability = some x ∧ x.Matches y

/-- Every crowd ends every frame in agreement, as long as its clock does not run over. -/
theorem endsInAgreement (ρ : Type) [Generator ρ] (config : CrowdConfig) (n : Nat)
    (hpop : config.population < 2 ^ 32) (hclock : n * config.delta.nanos < Duration.limit) :
    EndsInAgreement ρ config n := by
  have hsound := fun k hk => sound_after (ρ := ρ) (k := k) hpop hclock hk
  have hupdate : ∀ k < n, (∃ whole, (after ρ config k).update.1 = .ok (.ok whole) ∧
      Quiet config whole) ∧ (after ρ config k).Updates (after ρ config (k + 1)) := by
    intro k hk
    have htime := Nat.mul_le_mul_right config.delta.nanos hk
    rw [Nat.succ_mul] at htime
    obtain ⟨whole, s', heq, hquiet, -, hupdates⟩ :=
      (hsound k (Nat.le_of_lt hk)).update hpop (by omega)
    have hafter : after ρ config (k + 1) = s' := congrArg Prod.snd heq
    exact ⟨⟨whole, congrArg Prod.fst heq, hquiet⟩, hafter ▸ hupdates⟩
  have hregistry : ∀ k ≤ n,
      (after ρ config k).stage.registry = (after ρ config 0).stage.registry := by
    intro k hk
    induction k with
    | zero => rfl
    | succ k ih => exact (hupdate k hk).2.registry.trans (ih (Nat.le_of_lt hk))
  constructor
  case setup =>
    obtain ⟨s, hsetup, -⟩ := sound_setup ρ hpop
    exact congrArg Prod.fst hsetup
  case size => exact (hsound 0 (Nat.zero_le _)).size
  case actors => exact fun k hk => (hsound k hk).actors_eq
  case houses => exact fun k hk => (hsound k hk).houses
  case handles => exact fun k hk h => by rw [hregistry k hk]
  case update => exact fun k hk => (hupdate k hk).1
  case agreement =>
    intro k hk h ref href rule hrule
    have hupdates := (hupdate k hk).2
    obtain ⟨b, hb, hcapability, hcomponent⟩ := exists_binding hrule
    obtain ⟨x, cell, hh, hmatches⟩ := hupdates.agreement h ref (hupdates.registry ▸ href) b hb
    have htable := (hsound (k + 1) hk).table
    refine ⟨b.component, x, cell.value, ?_, hcapability ▸ Stage.property?_of_holds hh href,
      hh.component?, hmatches⟩
    rw [Coordinator.componentId?, htable]
    exact hcomponent
  case moved =>
    intro k hk h ref href
    have hsound' := hsound k (Nat.le_of_lt hk)
    have hupdates := (hupdate k hk).2
    obtain ⟨_, _, _, _, _, _, x, cell, hp, hv, hx, hh, hmatches⟩ := hupdates.moved h ref href
    refine ⟨_, _, _, _, _, _, _, x, cell.value, ?_, hp, hv, hsound'.config_eq ▸ hx,
      Stage.property?_of_holds hh (hupdates.registry ▸ href), hh.component?, hmatches⟩
    rw [Coordinator.componentId?, hsound'.table]
    exact find?_actorTable 0 (by decide)
  case named =>
    intro k hk h ref href
    have hupdates := (hupdate k hk).2
    obtain ⟨v, x, cell, hbefore, hlast, hh, hmatches⟩ := hupdates.named h ref href
    refine ⟨_, v, x, cell.value, ?_, hbefore, hlast, hh.component?,
      Stage.property?_of_holds hh (hupdates.registry ▸ href), hmatches⟩
    rw [Coordinator.componentId?, (hsound k (Nat.le_of_lt hk)).table]
    exact find?_actorTable 2 (by decide)

theorem endsInAgreement_default : EndsInAgreement RandomStream {} 3 :=
  endsInAgreement RandomStream {} 3 (by decide) (by decide)

end Crowd

end Tether
