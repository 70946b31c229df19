import Tether.Proofs.Actors
import Tether.Proofs.Rounding
import Tether.Workload.Churn

/-!
# Churning

In a churning population some actors leave in every frame and as many come, so that it keeps its
size. `Churn.keepsPopulation` says so of every configuration and every lawful generator, as long
as the clock does not run over : after the setup and after any number of updates the bound host
objects are exactly the live actors, every frame reaps who left and binds who came, nothing is
refused and no listener fails. Identities have 64 bits and come round; the population is kept
exactly if nobody comes with the identity of one who stays (`Churn.Unrepeated`), as is so at least
as long as they have not come round (`Churn.unrepeated_of_le`).

What holds from one frame to the next is `Churn.Sound`, which tells apart who is bound and who is
still there. It is kept when an actor leaves (`Churn.Sound.dropOne`) and restored by the frame in
which new actors come (`Churn.Sound.step`).
-/

set_option linter.unusedSectionVars false

namespace Tether

/-- An item is taken out of an array by putting the last one in its place. -/
theorem perm_swap_pop {α : Type} {xs : Array α} {i : Nat} (hi : i < xs.size) :
    (xs[i] :: (xs.swapIfInBounds i (xs.size - 1)).pop.toList).Perm xs.toList := by
  have hlast : xs.size - 1 < xs.size := by omega
  have hswap : xs.swapIfInBounds i (xs.size - 1) = xs.swap i (xs.size - 1) := by
    rw [Array.swapIfInBounds_def, dif_pos hi, dif_pos hlast]
  have hperm := (Array.swap_perm hi hlast).toList
  rw [hswap, Array.toList_pop]
  have hne : (xs.swap i (xs.size - 1)).toList ≠ [] := by
    intro hnil
    have hlength := congrArg List.length hnil
    simp only [Array.length_toList, Array.size_swap, List.length_nil] at hlength
    omega
  have hget : (xs.swap i (xs.size - 1)).toList.getLast hne = xs[i] := by
    simp [List.getLast_eq_getElem]
  have hsplit := List.dropLast_concat_getLast hne
  rw [hget] at hsplit
  rw [← hsplit] at hperm
  exact (List.perm_append_singleton _ _).symm.trans hperm

namespace Churn

variable {ρ : Type} [Generator ρ]

/-- What holds of a churning population from one frame to the next. So many actors were made so far,
`old` are the host objects that are bound, and the live ones of them are still there. -/
structure Sound (config : ChurnConfig) (time made : Nat) (old : List HostRef) (s : Churn ρ) :
    Prop where
  config_eq : s.config = config
  rest : s.stage.AtRest
  waiting : s.stage.waiting = []
  time_eq : s.stage.frame.time.nanos = time
  houses : s.stage.Houses old
  holds : s.stage.hosts.Holds s.live.toList
  subset : ∀ ref ∈ s.live.toList, ref ∈ old
  apart : (old.map HostRef.address).Nodup
  below : ∀ ref ∈ old, ref.address < s.stage.hosts.created
  ids : (s.live.toList.map HostRef.id).Nodup
  numbered : ∀ ref ∈ s.live.toList, ∃ k < made, ref.id = actorId k
  made_eq : s.factory.Made made
  capacity : s.stage.registry.allocator.capacity ≤ config.population

section Sound

variable {config : ChurnConfig} {time made : Nat} {old : List HostRef} {s : Churn ρ}
  (h : s.Sound config time made old)
include h

/-- Of the bound host objects those are there that are live. -/
theorem Sound.mem_live_iff (ref : HostRef) :
    ref ∈ s.live.toList ↔ ref ∈ old ∧ s.stage.hosts.alive ref = true := by
  rw [h.holds.alive_iff]
  constructor
  · exact fun hin => ⟨h.subset ref hin, List.mem_map_of_mem hin⟩
  · rintro ⟨hold, hin⟩
    obtain ⟨other, hother, heq⟩ := List.mem_map.mp hin
    exact List.inj_on_of_nodup_map h.apart (h.subset other hother) hold heq ▸ hother

/-! ## Actors leave -/

omit h in
/-- One live actor leaves, at a place that there is. -/
theorem dropOne_eq [LawfulGenerator ρ] (hpos : 0 < s.live.size) :
    ∃ i, ∃ hi : i < s.live.size, ∃ stream, s.dropOne =
      { s with
        factory := { s.factory with stream }
        live := (s.live.swapIfInBounds i (s.live.size - 1)).pop
        stage := s.stage.leave s.live[i] } := by
  have hi := LawfulGenerator.below_lt hpos s.factory.stream
  refine ⟨_, hi, (Generator.below s.factory.stream s.live.size).2, ?_⟩
  simp only [dropOne, Array.getElem?_eq_getElem hi]

/-- The actor that leaves is not there any longer, but still bound. -/
theorem Sound.dropOne [LawfulGenerator ρ] (hpos : 0 < s.live.size) :
    s.dropOne.Sound config time made old ∧ s.dropOne.live.size + 1 = s.live.size := by
  obtain ⟨i, hi, stream, heq⟩ := dropOne_eq hpos
  have hperm := perm_swap_pop hi
  have hmem : ∀ ref ∈ (s.live.swapIfInBounds i (s.live.size - 1)).pop.toList, ref ∈ s.live.toList :=
    fun ref href => hperm.subset (List.mem_cons_of_mem _ href)
  obtain ⟨hholds, hcreated⟩ := (h.holds.perm hperm.symm).release
  rw [heq]
  refine ⟨⟨h.config_eq, h.rest.setHosts hholds.allOwned, h.waiting, h.time_eq, h.houses, hholds,
    fun ref href => h.subset ref (hmem ref href), h.apart,
    fun ref href => Nat.lt_of_lt_of_eq (h.below ref href) hcreated.symm, ?_,
    fun ref href => h.numbered ref (hmem ref href), h.made_eq, h.capacity⟩, ?_⟩
  · exact (List.nodup_cons.mp ((hperm.map HostRef.id).nodup_iff.mpr h.ids)).2
  · simpa using hperm.length_eq

theorem Sound.drop [LawfulGenerator ρ] {n : Nat} (hle : n ≤ s.live.size) :
    (drop n s).Sound config time made old ∧ (drop n s).live.size + n = s.live.size := by
  induction n generalizing s with
  | zero => exact ⟨h, rfl⟩
  | succ n ih =>
    obtain ⟨hone, hsize⟩ := h.dropOne (by omega)
    obtain ⟨hrest, hsize'⟩ := ih hone (by omega)
    exact ⟨hrest, by rw [Churn.drop]; omega⟩

/-- Nobody is left when all have left. -/
theorem Sound.leave : Sound config time made old
    { s with stage := s.live.foldl Stage.leave s.stage, live := #[] } := by
  have hall : s.stage.hosts.Holds (s.live.toList ++ []) := by
    rw [List.append_nil]
    exact h.holds
  obtain ⟨hosts, hstate, hholds, hcreated⟩ := Stage.foldl_leave hall
  rw [← Array.foldl_toList]
  rw [hstate]
  exact ⟨h.config_eq, h.rest.setHosts hholds.allOwned, h.waiting, h.time_eq, h.houses, hholds,
    by simp, h.apart, fun ref href => Nat.lt_of_lt_of_eq (h.below ref href) hcreated.symm,
    by simp, by simp, h.made_eq, h.capacity⟩

/-! ## Actors come -/

/-- What new actors change before the frame in which they are bound. -/
structure Spawned (s : Churn ρ) (made count : Nat) (refs : List HostRef) (t : Churn ρ) : Prop where
  config : t.config = s.config
  made_eq : t.factory.Made (made + count)
  live : t.live.toList = s.live.toList ++ refs
  ids : refs.map HostRef.id = (List.range' made count).map actorId
  rest : t.stage.AtRest
  registry : t.stage.registry = s.stage.registry
  frame : t.stage.frame = s.stage.frame
  waiting : t.stage.waiting = refs.map .create
  holds : t.stage.hosts.Holds t.live.toList
  /-- Nobody had their addresses before. -/
  new : ∀ ref ∈ refs, s.stage.hosts.created ≤ ref.address

omit h in
theorem Spawned.exists_number {t : Churn ρ} {count : Nat} {refs : List HostRef}
    (hs : s.Spawned made count refs t) {ref : HostRef} (href : ref ∈ refs) :
    ∃ j < count, ref.id = actorId (made + j) := by
  have hin := List.mem_map_of_mem (f := HostRef.id) href
  rw [hs.ids, List.mem_map] at hin
  obtain ⟨k, hk, heq⟩ := hin
  rw [List.mem_range'_1] at hk
  exact ⟨k - made, by omega, by rw [Nat.add_sub_cancel' hk.1, heq]⟩

theorem Sound.spawned (count : Nat) : ∃ refs, s.Spawned made count refs (spawn count s) := by
  obtain ⟨hactors, hmade⟩ := ActorFactory.ids_actors h.made_eq count
  obtain ⟨hstate, hids, hholds, hnew, -⟩ := Stage.enters_enter (s.factory.actors count).1 s.stage
  refine ⟨(Stage.enter (s.factory.actors count).1 s.stage).1, ?_⟩
  obtain ⟨queue, hstage, hqueue, hwaiting⟩ := Stage.foldl_request
    (Stage.enter (s.factory.actors count).1 s.stage).1
    (Stage.enter (s.factory.actors count).1 s.stage).2
  simp only [spawn]
  rw [hstage]
  generalize (Stage.enter (s.factory.actors count).1 s.stage).2 = d at *
  generalize d.hosts = hosts at hstate hholds
  subst hstate
  have hall := hholds _ h.holds
  refine ⟨rfl, hmade, by simp, hids.trans hactors,
    (h.rest.setHosts hall.allOwned).setQueue (hqueue h.rest.queue), rfl, rfl, ?_, ?_, hnew⟩
  · have hnone : (s.stage.setHosts hosts).waiting = [] := h.waiting
    rw [hnone, List.nil_append] at hwaiting
    exact hwaiting
  · show hosts.Holds (s.live ++ _).toList
    rwa [Array.toList_append]

/-- Who comes has an identity of its own, if nobody who stays has one of the new ones. -/
theorem Sound.nodup_ids {t : Churn ρ} {count : Nat} {refs : List HostRef}
    (hs : s.Spawned made count refs t) (hcount : count ≤ 2 ^ 64)
    (hids : ∀ ref ∈ s.live.toList, ∀ j < count, ref.id ≠ actorId (made + j)) :
    ((s.live.toList ++ refs).map HostRef.id).Nodup := by
  rw [List.map_append, List.nodup_append]
  refine ⟨h.ids, hs.ids ▸ nodup_actorIds made hcount, ?_⟩
  rintro _ ha _ hb rfl
  obtain ⟨ref, href, rfl⟩ := List.mem_map.mp ha
  obtain ⟨ref', href', heq⟩ := List.mem_map.mp hb
  obtain ⟨j, hj, hid⟩ := hs.exists_number href'
  exact hids ref href j hj (heq.symm.trans hid)

/-- Nobody who is bound has the address of one who comes, so those who stay are those who are
still there. -/
theorem Sound.stays {t : Churn ρ} {count : Nat} {refs : List HostRef}
    (hs : s.Spawned made count refs t) (ref : HostRef) :
    ref ∈ s.live.toList ↔ ref ∈ old ∧ t.stage.hosts.alive ref = true := by
  rw [h.mem_live_iff, hs.holds.alive_iff, h.holds.alive_iff, hs.live, List.map_append,
    List.mem_append]
  refine and_congr_right fun hold => ⟨.inl, fun hin => hin.resolve_right fun hnew => ?_⟩
  obtain ⟨ref', href', heq⟩ := List.mem_map.mp hnew
  exact Nat.lt_irrefl _ (Nat.lt_of_lt_of_le (h.below ref hold) (heq ▸ hs.new ref' href'))

/-- In the frame in which new actors come those who left are reaped, if nobody who stays has one of
the new identities. -/
theorem Sound.step {count : Nat} (hroom : s.live.size + count ≤ config.population)
    (hpop : config.population < 2 ^ 32)
    (hids : ∀ ref ∈ s.live.toList, ∀ j < count, ref.id ≠ actorId (made + j))
    (htime : time + config.delta.nanos < Duration.limit) :
    ∃ whole s', (spawn count s).step = (.ok (.ok whole), s') ∧
      (∃ reaped, old.length = s.live.size + reaped ∧
        whole.flush = { applied := count, reaped }) ∧
      whole.dispatch.failures = [] ∧
      s'.Sound config (time + config.delta.nanos) (made + count) s'.live.toList ∧
      s'.live.size = s.live.size + count := by
  obtain ⟨refs, hs⟩ := h.spawned count
  generalize spawn count s = t at hs
  have hlength : refs.length = count := by
    simpa using congrArg List.length hs.ids
  have hdistinct := h.nodup_ids hs (by omega) hids
  have hregistry : t.stage.registry = s.stage.registry := hs.registry
  have hsize : (s.live.toList ++ refs).length = s.live.size + count := by
    rw [List.length_append, Array.length_toList, hlength]
  have hcapacity := h.capacity
  obtain ⟨frame, hadvance, htime'⟩ :
      ∃ g, t.stage.frame.advance config.delta = .ok g ∧ g.time.nanos = _ :=
    Frame.exists_advance (by rwa [hs.frame, h.time_eq])
  obtain ⟨whole, d, hstep, hrenews⟩ := hs.rest.step (fun ref => hregistry ▸ h.houses ref)
    (List.Nodup.of_map _ h.apart) (h.stays hs) hs.waiting hdistinct
    (fun ref href => hs.holds.alive (hs.live ▸ List.mem_append_right _ href))
    (by rw [hregistry]; omega) (by omega) hadvance
  obtain ⟨reaped, hreaped, hflush⟩ := hrenews.flush
  have hcapacity' := hrenews.capacity
  rw [hregistry, hsize] at hcapacity'
  have hholds := hs.holds.alike hrenews.hosts
  have hlive : t.live.size = s.live.size + count := by
    rw [← Array.length_toList, hs.live, hsize]
  refine ⟨whole, { t with stage := d }, ?_, ⟨reaped, hreaped, hlength ▸ hflush⟩, hrenews.failures,
    ?_, hlive⟩
  · rw [Churn.step, hs.config, h.config_eq, hstep]
  · refine ⟨hs.config.trans h.config_eq, hrenews.rest, hrenews.waiting, ?_,
      hs.live ▸ hrenews.houses, hholds, fun _ hin => hin, hholds.apart, hholds.below,
      hs.live ▸ hdistinct, ?_, hs.made_eq, ?_⟩
    · rw [hrenews.time, htime', hs.frame, h.time_eq]
    · intro ref href
      rw [hs.live, List.mem_append] at href
      rcases href with href | href
      · obtain ⟨k, hk, hid⟩ := h.numbered ref href
        exact ⟨k, by omega, hid⟩
      · obtain ⟨j, hj, hid⟩ := hs.exists_number href
        exact ⟨made + j, by omega, hid⟩
    · show d.registry.allocator.capacity ≤ _
      omega

end Sound

/-! ## From the setup on -/

/-- The population that is not there yet, with its listeners. -/
def listening (ρ : Type) [Generator ρ] (config : ChurnConfig) : Churn ρ :=
  let s := ofConfig config ρ
  { s with
    stage := ((s.stage.subscribe .lifecycle .entityCreated checkHost).2.subscribe .lifecycle
      .entityDestroying watchEnd).2 }

theorem setup_eq (config : ChurnConfig) :
    (ofConfig config ρ).setup = (spawn config.population (listening ρ config)).step := rfl

theorem sound_listening (config : ChurnConfig) : (listening ρ config).Sound config 0 0 [] where
  config_eq := rfl
  rest := by
    refine ((Stage.atRest_new config.workers).subscribe fun signal view around _ hhost =>
      ?_).subscribe fun _ _ _ _ _ => rfl
    obtain ⟨host, heq⟩ := Option.isSome_iff_exists.mp (hhost rfl)
    simp only [checkHost, heq]
  waiting := rfl
  time_eq := rfl
  houses := Stage.houses_new config.workers
  holds := Hosts.holds_empty
  subset := by simp [listening, ofConfig]
  apart := List.nodup_nil
  below := by simp
  ids := List.nodup_nil
  numbered := by simp [listening, ofConfig]
  made_eq := rfl
  capacity := Nat.zero_le _

/-- How many actors are replaced in each frame of a population of full size : its product with the
turnover, rounded up, but never more than there are. -/
def share (config : ChurnConfig) : ℕ :=
  min (Binary64.ofNat config.population * config.turnover).roundUp config.population

/-- The population after its setup and so many updates. -/
def after (ρ : Type) [Generator ρ] (config : ChurnConfig) : Nat → Churn ρ
  | 0 => (ofConfig config ρ).setup.2
  | n + 1 => (after ρ config n).update.2

section Full

variable [LawfulGenerator ρ] {config : ChurnConfig} {time made : Nat} {s : Churn ρ}
  (h : s.Sound config time made s.live.toList) (hfull : s.live.size = config.population)
include h hfull

omit [LawfulGenerator ρ] in
/-- An update of a population of full size. -/
theorem Sound.update_eq : s.update = (spawn (share config) (Churn.drop (share config) s)).step := by
  rw [Churn.update, h.config_eq, hfull, replacedPerFrame, Binary64.ceilCount_eq]
  rfl

theorem Sound.update (hpop : config.population < 2 ^ 32)
    (hids : ∀ ref ∈ (Churn.drop (share config) s).live.toList, ∀ j < share config,
      ref.id ≠ actorId (made + j))
    (htime : time + config.delta.nanos < Duration.limit) :
    ∃ whole s', s.update = (.ok (.ok whole), s') ∧
      whole.flush = { applied := share config, reaped := share config } ∧
      whole.dispatch.failures = [] ∧
      s'.Sound config (time + config.delta.nanos) (made + share config) s'.live.toList ∧
      s'.live.size = config.population := by
  have hle : share config ≤ s.live.size := hfull ▸ Nat.min_le_right _ _
  obtain ⟨hdropped, hsize⟩ := h.drop hle
  obtain ⟨whole, s', hstep, ⟨reaped, hreaped, hflush⟩, hfailures, hsound, hlive⟩ :=
    hdropped.step (by omega) hpop hids htime
  rw [Array.length_toList] at hreaped
  obtain rfl : reaped = share config := by omega
  exact ⟨whole, s', (h.update_eq hfull).trans hstep, hflush, hfailures, hsound, by omega⟩

/-- Nobody is bound any longer when all have left and a last frame was run. -/
theorem Sound.teardown (hpop : config.population < 2 ^ 32)
    (htime : time + config.delta.nanos < Duration.limit) :
    ∃ whole s', s.teardown = (.ok (.ok whole), s') ∧
      whole.flush = { applied := 0, reaped := config.population } ∧
      whole.dispatch.failures = [] ∧ s'.stage.Houses [] ∧ s'.stage.registry.size = 0 := by
  obtain ⟨whole, s', hstep, ⟨reaped, hreaped, hflush⟩, hfailures, hsound, hlive⟩ :=
    h.leave.step (show (#[] : Array HostRef).size + 0 ≤ config.population from Nat.zero_le _)
      hpop (by simp) htime
  obtain rfl : reaped = config.population := by
    simpa [hfull] using hreaped.symm
  have hnobody : s'.live.toList = [] := List.eq_nil_of_length_eq_zero hlive
  have hhouses := hsound.houses
  rw [hnobody] at hhouses
  exact ⟨whole, s', hstep, hflush, hfailures, hhouses,
    hhouses.size_eq hsound.rest.consistent List.nodup_nil⟩

/-- Actors are drawn from those that are there. -/
theorem Sound.draws {j : Nat} (hj : j < share config) : 0 < (Churn.drop j s).live.size := by
  have hle : share config ≤ s.live.size := hfull ▸ Nat.min_le_right _ _
  have hsize := (h.drop (n := j) (by omega)).2
  omega

end Full

variable (ρ) in
theorem sound_setup {config : ChurnConfig} (hpop : config.population < 2 ^ 32)
    (htime : config.delta.nanos < Duration.limit) :
    ∃ whole s, (ofConfig config ρ).setup = (.ok (.ok whole), s) ∧
      whole.flush = { applied := config.population } ∧ whole.dispatch.failures = [] ∧
      s.Sound config config.delta.nanos config.population s.live.toList ∧
      s.live.size = config.population := by
  obtain ⟨whole, s, hstep, ⟨reaped, hreaped, hflush⟩, hfailures, hsound, hlive⟩ :=
    (sound_listening (ρ := ρ) config).step (Nat.le_of_eq (Nat.zero_add config.population)) hpop
      (by simp [listening, ofConfig]) (by omega)
  have hnobody : (listening ρ config).live.size = 0 := rfl
  rw [hnobody, List.length_nil, Nat.zero_add] at hreaped
  subst hreaped
  rw [Nat.zero_add, Nat.zero_add] at hsound
  exact ⟨whole, s, (setup_eq config).trans hstep, hflush, hfailures, hsound,
    hlive.trans (Nat.zero_add _)⟩

/-- In so many updates nobody comes with the identity of one who stays. -/
def Unrepeated (ρ : Type) [Generator ρ] (config : ChurnConfig) (n : Nat) : Prop :=
  ∀ k < n, ∀ ref ∈ (drop (share config) (after ρ config k)).live.toList, ∀ j < share config,
    ref.id ≠ actorId (config.population + k * share config + j)

section Run

variable [LawfulGenerator ρ] {config : ChurnConfig} {n k : Nat}

theorem clock_of_le (hclock : (n + 2) * config.delta.nanos < Duration.limit) (hk : k ≤ n) :
    (k + 1) * config.delta.nanos + config.delta.nanos < Duration.limit := by
  have := Nat.mul_le_mul_right config.delta.nanos (show k + 2 ≤ n + 2 by omega)
  rw [Nat.succ_mul] at this
  omega

/-- The population after so many updates. -/
theorem sound_after (hpop : config.population < 2 ^ 32)
    (hclock : (n + 2) * config.delta.nanos < Duration.limit) (hids : Unrepeated ρ config n)
    (hk : k ≤ n) :
    (after ρ config k).Sound config ((k + 1) * config.delta.nanos)
        (config.population + k * share config) (after ρ config k).live.toList ∧
      (after ρ config k).live.size = config.population := by
  induction k with
  | zero =>
    obtain ⟨whole, s, hsetup, -, -, hsound⟩ :=
      sound_setup ρ hpop (by have := clock_of_le hclock hk; omega)
    have hafter : after ρ config 0 = s := congrArg Prod.snd hsetup
    simpa [hafter] using hsound
  | succ k ih =>
    obtain ⟨hsound, hfull⟩ := ih (by omega)
    obtain ⟨whole, s', hupdate, -, -, hsound'⟩ := hsound.update hfull hpop (hids k hk)
      (clock_of_le hclock (by omega))
    have hafter : after ρ config (k + 1) = s' := congrArg Prod.snd hupdate
    rw [hafter, Nat.succ_mul k, Nat.succ_mul (k + 1), ← Nat.add_assoc config.population]
    exact hsound'

/-- Identities are not repeated before they have come round. -/
theorem unrepeated_of_le (hpop : config.population < 2 ^ 32)
    (hclock : (n + 2) * config.delta.nanos < Duration.limit)
    (hmade : config.population + n * share config ≤ 2 ^ 64) : Unrepeated ρ config n := by
  induction n with
  | zero => exact fun k hk => absurd hk (Nat.not_lt_zero k)
  | succ n ih =>
    rw [Nat.succ_mul] at hmade
    have hclock' := clock_of_le hclock (Nat.le_succ n)
    have hids := ih (by rwa [← Nat.succ_mul] at hclock') (by omega)
    intro k hk ref href j hj heq
    obtain hk | rfl := Nat.lt_succ_iff_lt_or_eq.mp hk
    · exact hids k hk ref href j hj heq
    · -- whoever stays was made before
      obtain ⟨hsound, hfull⟩ := sound_after hpop (by rwa [← Nat.succ_mul] at hclock') hids
        (Nat.le_refl k)
      obtain ⟨i, hi, hid⟩ := (hsound.drop (hfull ▸ Nat.min_le_right _ _)).1.numbered ref href
      have := actorId_inj (n := 0) ⟨by omega, by omega⟩ ⟨by omega, by omega⟩ (hid.symm.trans heq)
      omega

end Run

/-- A churning population keeps its size : what its setup, so many updates and a teardown at any
time come to. -/
structure KeepsPopulation (ρ : Type) [Generator ρ] (config : ChurnConfig) (n : Nat) : Prop where
  /-- The setup binds the whole population. -/
  setup : ∃ whole, (ofConfig config ρ).setup.1 = .ok (.ok whole) ∧
    whole.flush = { applied := config.population } ∧ whole.dispatch.failures = []
  /-- Exactly the live actors are bound, each of them once, and none is gone. -/
  houses : ∀ k ≤ n, (after ρ config k).stage.Houses (after ρ config k).live.toList
  nodup : ∀ k ≤ n, (after ρ config k).live.toList.Nodup
  alive : ∀ k ≤ n, ∀ ref ∈ (after ρ config k).live.toList,
    (after ρ config k).stage.hosts.alive ref = true
  /-- Each is found under its identity. -/
  found : ∀ k ≤ n, ∀ ref ∈ (after ρ config k).live.toList, ∃ h,
    (after ρ config k).stage.registry.lookup? ref.id = some h ∧
      (after ρ config k).stage.registry.resolve? h = some ref
  live : ∀ k ≤ n, (after ρ config k).live.size = config.population
  size : ∀ k ≤ n, (after ρ config k).stage.registry.size = config.population
  /-- An update reaps a share and binds as many, and nothing of it is stale or refused. -/
  update : ∀ k < n, ∃ whole, (after ρ config k).update.1 = .ok (.ok whole) ∧
    whole.flush = { applied := share config, reaped := share config } ∧
    whole.dispatch.failures = []
  /-- Whenever an actor is drawn, there is one. -/
  draws : ∀ k < n, ∀ j < share config, 0 < (drop j (after ρ config k)).live.size
  /-- A teardown leaves nobody bound. -/
  teardown : ∀ k ≤ n, ∃ whole, (after ρ config k).teardown.1 = .ok (.ok whole) ∧
    whole.flush = { applied := 0, reaped := config.population } ∧
    whole.dispatch.failures = [] ∧ (after ρ config k).teardown.2.stage.Houses [] ∧
    (after ρ config k).teardown.2.stage.registry.size = 0

section Keeps

variable [LawfulGenerator ρ] {config : ChurnConfig} {n : Nat}

theorem keeps_of_unrepeated (hpop : config.population < 2 ^ 32)
    (hclock : (n + 2) * config.delta.nanos < Duration.limit) (hids : Unrepeated ρ config n) :
    KeepsPopulation ρ config n := by
  have hsound := fun k hk => (sound_after (k := k) hpop hclock hids hk).1
  have hfull := fun k hk => (sound_after (k := k) hpop hclock hids hk).2
  have htime := fun k hk => clock_of_le (k := k) hclock hk
  have hnodup := fun k hk => List.Nodup.of_map _ (hsound k hk).apart
  constructor
  case setup =>
    obtain ⟨whole, s, hsetup, hflush, hfailures, -⟩ :=
      sound_setup ρ hpop (by have := htime 0 (Nat.zero_le _); omega)
    exact ⟨whole, congrArg Prod.fst hsetup, hflush, hfailures⟩
  case houses => exact fun k hk => (hsound k hk).houses
  case nodup => exact hnodup
  case alive => exact fun k hk ref href => (((hsound k hk).mem_live_iff ref).mp href).2
  case found =>
    intro k hk ref href
    obtain ⟨h, hresolve⟩ := ((hsound k hk).houses ref).mpr href
    exact ⟨h, (Coordinator.lookup?_iff_resolve? (hsound k hk).rest.consistent).mpr
      ⟨ref, hresolve, rfl⟩, hresolve⟩
  case live => exact hfull
  case size =>
    intro k hk
    rw [(hsound k hk).houses.size_eq (hsound k hk).rest.consistent (hnodup k hk),
      Array.length_toList, hfull k hk]
  case update =>
    intro k hk
    have hk' := Nat.le_of_lt hk
    obtain ⟨whole, s, hupdate, hflush, hfailures, -⟩ := (hsound k hk').update (hfull k hk') hpop
      (hids k hk) (htime k hk')
    exact ⟨whole, congrArg Prod.fst hupdate, hflush, hfailures⟩
  case draws =>
    intro k hk j hj
    have hk' := Nat.le_of_lt hk
    exact (hsound k hk').draws (hfull k hk') hj
  case teardown =>
    intro k hk
    obtain ⟨whole, s, hteardown, hflush, hfailures, hhouses, hsize⟩ :=
      (hsound k hk).teardown (hfull k hk) hpop (htime k hk)
    exact ⟨whole, congrArg Prod.fst hteardown, hflush, hfailures, hteardown ▸ hhouses,
      hteardown ▸ hsize⟩

/-- Two actors of one identity would not both be found under it. -/
theorem unrepeated_of_keeps (hpop : config.population < 2 ^ 32)
    (hclock : (n + 2) * config.delta.nanos < Duration.limit) (h : KeepsPopulation ρ config n) :
    Unrepeated ρ config n := by
  intro k hk
  induction k using Nat.strong_induction_on with
  | _ k ih =>
    have hclock' : (k + 2) * config.delta.nanos < Duration.limit :=
      Nat.lt_of_le_of_lt (Nat.mul_le_mul_right _ (by omega)) hclock
    obtain ⟨hsound, hfull⟩ := sound_after hpop hclock'
      (fun i hi => ih i hi (Nat.lt_trans hi hk)) (Nat.le_refl k)
    obtain ⟨hdropped, -⟩ := hsound.drop (n := share config) (hfull ▸ Nat.min_le_right _ _)
    obtain ⟨refs, hs⟩ := hdropped.spawned (share config)
    have hlive : (after ρ config (k + 1)).live =
        (spawn (share config) (drop (share config) (after ρ config k))).live :=
      congrArg (fun r => r.2.live) (hsound.update_eq hfull)
    have hfound := h.found (k + 1) hk
    have hnodup := h.nodup (k + 1) hk
    rw [hlive, hs.live] at hfound hnodup
    intro ref href j hj heq
    have hnew : actorId (config.population + k * share config + j) ∈ refs.map HostRef.id := by
      rw [hs.ids]
      exact List.mem_map_of_mem (List.mem_range'_1.mpr ⟨Nat.le_add_right _ _, by omega⟩)
    obtain ⟨ref', href', hid⟩ := List.mem_map.mp hnew
    obtain ⟨i, hlookup, hresolve⟩ := hfound ref (List.mem_append_left _ href)
    obtain ⟨i', hlookup', hresolve'⟩ := hfound ref' (List.mem_append_right _ href')
    rw [hid, ← heq] at hlookup'
    obtain rfl := Option.some.inj (hlookup.symm.trans hlookup')
    obtain rfl := Option.some.inj (hresolve.symm.trans hresolve')
    exact (List.nodup_append.mp hnodup).2.2 ref href ref href' rfl

end Keeps

/-- Every churning population keeps its size, as long as its clock does not run over, exactly if
nobody comes with the identity of one who stays. Nobody does before the identities have come
round. -/
theorem keepsPopulation (ρ : Type) [Generator ρ] [LawfulGenerator ρ] (config : ChurnConfig)
    (n : Nat) (hpop : config.population < 2 ^ 32)
    (hclock : (n + 2) * config.delta.nanos < Duration.limit) :
    (KeepsPopulation ρ config n ↔ Unrepeated ρ config n) ∧
      (config.population + n * share config ≤ 2 ^ 64 → KeepsPopulation ρ config n) :=
  ⟨⟨unrepeated_of_keeps hpop hclock, keeps_of_unrepeated hpop hclock⟩,
    fun hmade => keeps_of_unrepeated hpop hclock (unrepeated_of_le hpop hclock hmade)⟩

theorem keepsPopulation_default : KeepsPopulation RandomStream {} 3 := by
  have hshare : share {} ≤ 10000 := Nat.min_le_right _ _
  refine (keepsPopulation RandomStream {} 3 (by decide) (by decide)).2 ?_
  show 10000 + 3 * _ ≤ _
  omega

end Churn

end Tether
