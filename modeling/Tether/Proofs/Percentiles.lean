import Mathlib.Algebra.Order.BigOperators.Group.List
import Mathlib.Algebra.Order.Ring.Nat
import Mathlib.Order.Bounds.Basic
import Tether.Workload.Statistics

/-!
# Percentiles of frame times

In ascending order, the time at place `k` is the shortest with more than `k` times at most it
(`FrameStats.isLeast_getElem?`). A percentile stands at place `n * p / 100`, so below a hundred it
is the shortest time that *more than* `p` percent of the times are at most. Nearest rank asks for
*at least* `p` percent. The two part exactly where some recorded time has `p` percent of the times
at most it and no more : then that time has the nearest rank, and the percentile is the one after it
(`FrameStats.ranked_ofTimes`).

Whatever the times are, their statistics lie between the shortest and the longest, grow with `p` and
do not depend on the order of the measurements (`FrameStats.ordered_ofTimes`).
-/

namespace Tether

/-! ## Durations by length -/

namespace Duration

theorem nanos_injective : Function.Injective nanos := by
  rintro ⟨a, _⟩ ⟨b, _⟩ rfl
  rfl

instance : LinearOrder Duration := LinearOrder.lift' nanos nanos_injective

theorem le_iff {a b : Duration} : a.le b = true ↔ a ≤ b := by
  rw [le, decide_eq_true_eq]
  rfl

/-- How many times of a list are at most a given one. -/
def atMost (times : List Duration) (t : Duration) : Nat := times.countP fun x => x.le t

section AtMost

variable {times : List Duration} {s t : Duration}

theorem atMost_mono (times : List Duration) (h : s ≤ t) : atMost times s ≤ atMost times t := by
  refine List.countP_mono_left fun x _ hx => ?_
  rw [le_iff] at hx ⊢
  exact hx.trans h

theorem atMost_perm {times' : List Duration} (h : times'.Perm times) :
    atMost times' t = atMost times t := h.countP_eq _

/-- Of two recorded times, the longer one has more times at most it. -/
theorem atMost_lt_iff (ht : t ∈ times) : atMost times s < atMost times t ↔ s < t := by
  refine ⟨fun h => lt_of_not_ge fun hle => absurd (atMost_mono times hle) (Nat.not_le.mpr h),
    fun h => ?_⟩
  -- the longer time itself is at most it
  obtain ⟨before, after, rfl⟩ := List.append_of_mem ht
  have hbefore := atMost_mono before h.le
  have hafter := atMost_mono after h.le
  have hs : t.le s = false := by
    rw [← Bool.not_eq_true, le_iff]
    exact not_le.mpr h
  have ht : t.le t = true := le_iff.mpr le_rfl
  simp only [atMost, List.countP_append, List.countP_cons, hs, ht] at hbefore hafter ⊢
  simp only [Bool.false_eq_true, ↓reduceIte]
  omega

end AtMost

/-- Durations have a sum if the nanoseconds of it are not too many. -/
theorem sum?_eq (times : List Duration) : sum? times = ofNanos? (times.map nanos).sum := by
  rw [sum?, List.sum_eq_foldl, List.foldl_map]

theorem sum?_eq_some {times : List Duration} (h : (times.map nanos).sum < limit) :
    sum? times = some ⟨(times.map nanos).sum, h⟩ := by
  rw [sum?_eq, ofNanos?, dif_pos h]

end Duration

namespace FrameStats

open Duration

/-! ## Places in the ascending order -/

section Sorted

variable {sorted : List Duration} (hsorted : sorted.Pairwise (· ≤ ·))

include hsorted

theorem getElem?_mono {j k : Nat} (hjk : j ≤ k) {s t : Duration} (hs : sorted[j]? = some s)
    (ht : sorted[k]? = some t) : s ≤ t := by
  obtain ⟨hj, rfl⟩ := List.getElem?_eq_some_iff.mp hs
  obtain ⟨hk, rfl⟩ := List.getElem?_eq_some_iff.mp ht
  rcases Nat.eq_or_lt_of_le hjk with rfl | hlt
  · exact le_rfl
  · exact List.pairwise_iff_getElem.mp hsorted j k hj hk hlt

/-- All times up to a place are at most the time there. -/
theorem lt_atMost {k : Nat} {s : Duration} (hs : sorted[k]? = some s) : k < atMost sorted s := by
  obtain ⟨hk, -⟩ := List.getElem?_eq_some_iff.mp hs
  have hall : atMost (sorted.take (k + 1)) s = (sorted.take (k + 1)).length := by
    refine List.countP_eq_length.mpr fun t ht => le_iff.mpr ?_
    obtain ⟨j, hj⟩ := List.mem_iff_getElem?.mp ht
    rw [List.getElem?_take, ite_eq_iff] at hj
    obtain ⟨hjk, hj⟩ | ⟨-, hj⟩ := hj
    · exact getElem?_mono hsorted (Nat.le_of_lt_succ hjk) hj hs
    · cases hj
  have hsub : atMost (sorted.take (k + 1)) s ≤ atMost sorted s :=
    (List.take_sublist (k + 1) sorted).countP_le
  rw [List.length_take_of_le hk] at hall
  omega

/-- Only times before a place are at most a time that is shorter than the one there. -/
theorem atMost_le {k : Nat} {s t : Duration} (hs : sorted[k]? = some s) (hlt : t < s) :
    atMost sorted t ≤ k := by
  obtain ⟨hk, -⟩ := List.getElem?_eq_some_iff.mp hs
  have hnone : atMost (sorted.drop k) t = 0 := by
    refine List.countP_eq_zero.mpr fun u hu hle => not_le.mpr hlt ?_
    obtain ⟨j, hj⟩ := List.mem_iff_getElem?.mp hu
    rw [List.getElem?_drop] at hj
    exact (getElem?_mono hsorted (Nat.le_add_right k j) hs hj).trans (le_iff.mp hle)
  have hsplit : atMost sorted t = atMost (sorted.take k) t + atMost (sorted.drop k) t := by
    unfold atMost
    rw [← List.countP_append, List.take_append_drop]
  have htake : atMost (sorted.take k) t ≤ (sorted.take k).length := List.countP_le_length
  rw [List.length_take_of_le hk.le] at htake
  omega

/-- The time at a place is the shortest with more times at most it than there are places before. -/
theorem isLeast_getElem? {k : Nat} {s : Duration} (hs : sorted[k]? = some s) :
    IsLeast {t | t ∈ sorted ∧ k < atMost sorted t} s := by
  refine ⟨⟨List.mem_of_getElem? hs, lt_atMost hsorted hs⟩, ?_⟩
  rintro t ⟨-, ht⟩
  by_contra hlt
  exact Nat.not_le.mpr ht (atMost_le hsorted hs (not_le.mp hlt))

end Sorted

/-! ## The distribution of a list -/

/-- A distribution that is the one of a list of frame times. -/
structure Of (times : List Duration) (s : FrameStats) : Prop where
  ascending : s.sorted.Pairwise (· ≤ ·)
  perm : s.sorted.Perm times
  total : s.total.nanos = (times.map nanos).sum

theorem exists_ofTimes {times : List Duration} (hsum : (times.map nanos).sum < limit) :
    ∃ s, ofTimes times = .ok s ∧ Of times s := by
  refine ⟨_, by rw [ofTimes, sum?_eq_some hsum], ?_, List.mergeSort_perm .., rfl⟩
  have hsorted := @List.pairwise_mergeSort _ Duration.le
    (fun a b c hab hbc => le_iff.mpr ((le_iff.mp hab).trans (le_iff.mp hbc)))
    (fun a b => by simp only [Bool.or_eq_true, le_iff]; exact le_total a b) times
  exact hsorted.imp fun h => le_iff.mp h

namespace Of

variable {times : List Duration} {s : FrameStats} (h : Of times s)

include h

/-- A list of times has one distribution, in whatever order they are. -/
theorem unique {times' : List Duration} {s' : FrameStats} (h' : Of times' s')
    (hperm : times'.Perm times) : s' = s := by
  have hsorted : s'.sorted = s.sorted :=
    (h'.perm.trans (hperm.trans h.perm.symm)).eq_of_pairwise (fun _ _ _ _ => le_antisymm)
      h'.ascending h.ascending
  have htotal : s'.total = s.total :=
    nanos_injective (by rw [h'.total, h.total, (hperm.map nanos).sum_eq])
  cases s
  cases s'
  cases hsorted
  cases htotal
  rfl

theorem frames_eq : s.frames = times.length := h.perm.length_eq

variable (hne : times ≠ [])

include hne

theorem frames_pos : 0 < s.frames := by
  rw [h.frames_eq]
  exact List.length_pos_iff.mpr hne

theorem rank_lt (p : Nat) : s.rank p < s.sorted.length := by
  have hpos := h.frames_pos hne
  unfold rank frames at *
  omega

theorem getElem?_rank (p : Nat) : s.sorted[s.rank p]? = some (s.percentile p) := by
  rw [percentile, List.getElem?_eq_getElem (h.rank_lt hne p), Option.getD_some]

/-- Below a hundred the place of a percentile is not cut. -/
theorem rank_of_lt {p : Nat} (hp : p < 100) : s.rank p = p * times.length / 100 := by
  have hpos := h.frames_pos hne
  rw [rank, h.frames_eq, Nat.min_eq_left hp.le, Nat.mul_comm] at *
  have hlt : p * times.length / 100 < times.length := by
    rw [Nat.div_lt_iff_lt_mul (by decide), Nat.mul_comm times.length]
    exact Nat.mul_lt_mul_of_pos_right hp hpos
  omega

omit hne in
theorem rank_of_le {p : Nat} (hp : 100 ≤ p) : s.rank p = times.length - 1 := by
  rw [rank, h.frames_eq, Nat.min_eq_right hp, Nat.mul_div_cancel _ (by decide)]
  exact Nat.min_eq_right (Nat.sub_le _ _)

theorem isLeast_percentile (p : Nat) :
    IsLeast {t | t ∈ times ∧ s.rank p < atMost times t} (s.percentile p) := by
  have hleast := isLeast_getElem? h.ascending (h.getElem?_rank hne p)
  simpa only [h.perm.mem_iff, atMost_perm h.perm] using hleast

theorem mem_percentile (p : Nat) : s.percentile p ∈ times := (h.isLeast_percentile hne p).1.1

theorem monotone_percentile : Monotone s.percentile := by
  intro p q hpq
  refine getElem?_mono h.ascending ?_ (h.getElem?_rank hne p) (h.getElem?_rank hne q)
  have hmin : min p 100 ≤ min q 100 := by omega
  have hplace := Nat.div_le_div_right (c := 100) (Nat.mul_le_mul_left s.frames hmin)
  unfold rank
  omega

theorem percentile_zero : s.percentile 0 = s.shortest := by
  rw [percentile, h.rank_of_lt hne (by decide), Nat.zero_mul, Nat.zero_div, shortest,
    List.head?_eq_getElem?]

omit hne in
theorem percentile_of_le {p : Nat} (hp : 100 ≤ p) : s.percentile p = s.longest := by
  rw [percentile, h.rank_of_le hp, longest, List.getLast?_eq_getElem?, h.perm.length_eq]

theorem isLeast_shortest : IsLeast {t | t ∈ times} s.shortest := by
  rw [← h.percentile_zero hne]
  refine ⟨h.mem_percentile hne 0, fun t ht => (h.isLeast_percentile hne 0).2 ⟨ht, ?_⟩⟩
  rw [h.rank_of_lt hne (by decide), Nat.zero_mul, Nat.zero_div]
  exact List.countP_pos_iff.mpr ⟨t, ht, le_iff.mpr le_rfl⟩

theorem isGreatest_longest : IsGreatest {t | t ∈ times} s.longest := by
  rw [← h.percentile_of_le le_rfl]
  refine ⟨h.mem_percentile hne 100, fun t ht => ?_⟩
  obtain ⟨k, hk⟩ := List.mem_iff_getElem?.mp (h.perm.mem_iff.mpr ht)
  have hplace : k ≤ s.rank 100 := by
    obtain ⟨hlt, -⟩ := List.getElem?_eq_some_iff.mp hk
    rw [h.perm.length_eq] at hlt
    rw [h.rank_of_le le_rfl]
    omega
  exact getElem?_mono h.ascending hplace hk (h.getElem?_rank hne 100)

end Of

/-! ## Nearest rank -/

/-- The shortest recorded time such that at least `p` percent of the times are at most it. -/
def IsNearestRank (times : List Duration) (p : Nat) (t : Duration) : Prop :=
  IsLeast {t | t ∈ times ∧ p * times.length ≤ 100 * atMost times t} t

/-- A recorded time such that exactly `p` percent of the times are at most it. -/
def CutsOff (times : List Duration) (p : Nat) (t : Duration) : Prop :=
  t ∈ times ∧ 100 * atMost times t = p * times.length

/-- What the percentiles of a list of times are. -/
structure Ranked (times : List Duration) (s : FrameStats) : Prop where
  /-- Below a hundred, the shortest time that more than `p` percent of the times are at most. -/
  exceeding : ∀ p < 100, IsLeast {t | t ∈ times ∧ p * times.length < 100 * atMost times t}
    (s.percentile p)
  /-- From a hundred on, the nearest rank of a hundred. -/
  whole : ∀ p, 100 ≤ p → IsNearestRank times 100 (s.percentile p)
  /-- A percentile is of the nearest rank unless a time cuts off exactly `p` percent. -/
  nearest_iff : ∀ p < 100, IsNearestRank times p (s.percentile p) ↔ ∀ t, ¬ CutsOff times p t
  /-- Where one does, it is of the nearest rank, and the percentile is the next longer time. -/
  following : ∀ p < 100, ∀ t, CutsOff times p t →
    IsNearestRank times p t ∧ IsLeast {u | u ∈ times ∧ t < u} (s.percentile p)

namespace Of

variable {times : List Duration} {s : FrameStats} (h : Of times s) (hne : times ≠ [])

include h hne

theorem exceeding {p : Nat} (hp : p < 100) :
    IsLeast {t | t ∈ times ∧ p * times.length < 100 * atMost times t} (s.percentile p) := by
  have hleast := h.isLeast_percentile hne p
  simpa only [h.rank_of_lt hne hp, Nat.div_lt_iff_lt_mul (show 0 < 100 by decide),
    Nat.mul_comm _ 100] using hleast

theorem whole {p : Nat} (hp : 100 ≤ p) : IsNearestRank times 100 (s.percentile p) := by
  have hpos := List.length_pos_iff.mpr hne
  have hcount (c : Nat) : times.length - 1 < c ↔ 100 * times.length ≤ 100 * c := by omega
  have hleast := h.isLeast_percentile hne p
  simp only [h.rank_of_le hp, hcount] at hleast
  exact hleast

theorem nearest_iff {p : Nat} (hp : p < 100) :
    IsNearestRank times p (s.percentile p) ↔ ∀ t, ¬ CutsOff times p t := by
  have hleast := h.exceeding hne hp
  constructor
  · rintro hnearest t ⟨ht, hexact⟩
    have hle := atMost_mono times (hnearest.2 ⟨ht, hexact.ge⟩)
    have hmore := hleast.1.2
    omega
  · intro hnone
    refine ⟨⟨hleast.1.1, hleast.1.2.le⟩, fun t ht => hleast.2 ⟨ht.1, ?_⟩⟩
    exact Nat.lt_of_le_of_ne ht.2 fun heq => hnone t ⟨ht.1, heq.symm⟩

theorem following {p : Nat} (hp : p < 100) {t : Duration} (ht : CutsOff times p t) :
    IsNearestRank times p t ∧ IsLeast {u | u ∈ times ∧ t < u} (s.percentile p) := by
  obtain ⟨hin, hexact⟩ := ht
  constructor
  · refine ⟨⟨hin, hexact.ge⟩, fun u hu => le_of_not_gt fun hlt => ?_⟩
    have hless := (atMost_lt_iff hin).mpr hlt
    have hmore := hu.2
    omega
  · have hiff (u : Duration) : u ∈ times ∧ p * times.length < 100 * atMost times u ↔
        u ∈ times ∧ t < u := by
      refine and_congr_right fun hu => ?_
      rw [← atMost_lt_iff hu]
      omega
    simpa only [hiff] using h.exceeding hne hp

end Of

/-- The percentiles of a list of times are of the nearest rank where no time cuts off just so many
of them, and the next longer time where one does. -/
theorem ranked_ofTimes (times : List Duration) (hne : times ≠ [])
    (hsum : (times.map nanos).sum < limit) :
    ∃ s, ofTimes times = .ok s ∧ Ranked times s := by
  obtain ⟨s, hs, h⟩ := exists_ofTimes hsum
  exact ⟨s, hs, fun _ hp => h.exceeding hne hp, fun _ hp => h.whole hne hp,
    fun _ hp => h.nearest_iff hne hp, fun _ hp _ ht => h.following hne hp ht⟩

/-- Five times of whole milliseconds. -/
def sampleTimes : List Duration :=
  [4, 1, 3, 2, 10].filterMap fun n => ofNanos? (n * 1000000)

/-- No time cuts off half of five, so their fiftieth percentile is of the nearest rank. -/
theorem ranked_ofTimes_sample : sampleTimes ≠ [] ∧ (sampleTimes.map nanos).sum < limit ∧
    ∃ s, ofTimes sampleTimes = .ok s ∧ Ranked sampleTimes s ∧
      IsNearestRank sampleTimes 50 (s.percentile 50) := by
  have hne : sampleTimes ≠ [] := by decide
  have hsum : (sampleTimes.map nanos).sum < limit := by decide
  obtain ⟨s, hs, h⟩ := ranked_ofTimes sampleTimes hne hsum
  refine ⟨hne, hsum, s, hs, h, (h.nearest_iff 50 (by decide)).mpr fun t ht => ?_⟩
  obtain ⟨-, hexact⟩ := ht
  have hlength : sampleTimes.length = 5 := by decide
  rw [hlength] at hexact
  omega

/-- The shortest of five times cuts off a fifth of them, so it is their twentieth percentile by
nearest rank, but the one that is told is the second. -/
theorem percentile_after_nearestRank : ∃ s, ofTimes sampleTimes = .ok s ∧
    IsNearestRank sampleTimes 20 ⟨1000000, by decide⟩ ∧
    s.percentile 20 = ⟨2000000, by decide⟩ ∧
    ¬ IsNearestRank sampleTimes 20 (s.percentile 20) := by
  have hne : sampleTimes ≠ [] := by decide
  obtain ⟨s, hs, h⟩ := exists_ofTimes (show (sampleTimes.map nanos).sum < limit by decide)
  have hcuts : CutsOff sampleTimes 20 ⟨1000000, by decide⟩ := by
    unfold CutsOff
    decide
  obtain ⟨hnearest, hnext⟩ := h.following hne (by decide) hcuts
  have hafter : ∀ u ∈ sampleTimes, ⟨1000000, by decide⟩ < u → ⟨2000000, by decide⟩ ≤ u := by decide
  have hsecond : IsLeast {u | u ∈ sampleTimes ∧ ⟨1000000, by decide⟩ < u} ⟨2000000, by decide⟩ :=
    ⟨⟨by decide, by decide⟩, fun u hu => hafter u hu.1 hu.2⟩
  exact ⟨s, hs, hnearest, hnext.unique hsecond,
    fun hfalse => (h.nearest_iff hne (by decide)).mp hfalse _ hcuts⟩

/-! ## Statistics in order -/

/-- The statistics of a list of times : they are found in it or between its ends, and every step on
the way to them can be taken. -/
structure Ordered (times : List Duration) (s : FrameStats) : Prop where
  recorded : ∀ p, s.percentile p ∈ times
  monotone : Monotone s.percentile
  first : s.percentile 0 = s.shortest
  last : ∀ p, 100 ≤ p → s.percentile p = s.longest
  shortest : IsLeast {t | t ∈ times} s.shortest
  longest : IsGreatest {t | t ∈ times} s.longest
  total : s.total.nanos = (times.map nanos).sum
  mean : s.mean.nanos = (times.map nanos).sum / times.length
  between : s.shortest ≤ s.mean ∧ s.mean ≤ s.longest
  /-- Places are computed in 64 bits, and there is a time at each. -/
  place : ∀ p, s.frames * min p 100 < 2 ^ 64 ∧ s.rank p < s.sorted.length
  /-- What the sum is divided by is the number of times, which is not zero. -/
  divisor : s.divisor.toNat = times.length ∧ s.divisor ≠ 0
  /-- The same times in another order have the same statistics. -/
  reordered : ∀ times', times'.Perm times → ofTimes times' = .ok s

namespace Of

variable {times : List Duration} {s : FrameStats} (h : Of times s)

include h

/-- Up to 32 bits, the sum is divided by the number of times. -/
theorem toNat_divisor (hlength : times.length < 2 ^ 32) : s.divisor.toNat = times.length := by
  rw [FrameStats.divisor, h.frames_eq]
  exact UInt32.toNat_ofNat_of_lt' hlength

variable (hne : times ≠ [])

include hne

theorem nanos_mean (hlength : times.length < 2 ^ 32) :
    s.mean.nanos = (times.map nanos).sum / times.length := by
  rw [FrameStats.mean, if_neg (h.frames_pos hne).ne', h.toNat_divisor hlength, ← h.total]
  rfl

theorem shortest_le_mean (hlength : times.length < 2 ^ 32) : s.shortest ≤ s.mean := by
  have hall := List.card_nsmul_le_sum (times.map nanos) s.shortest.nanos fun n hn => by
    obtain ⟨t, ht, rfl⟩ := List.mem_map.mp hn
    exact (h.isLeast_shortest hne).2 ht
  rw [List.length_map, Nat.nsmul_eq_mul, Nat.mul_comm] at hall
  show s.shortest.nanos ≤ s.mean.nanos
  rw [h.nanos_mean hne hlength]
  exact (Nat.le_div_iff_mul_le (List.length_pos_iff.mpr hne)).mpr hall

theorem mean_le_longest (hlength : times.length < 2 ^ 32) : s.mean ≤ s.longest := by
  have hall := List.sum_le_card_nsmul (times.map nanos) s.longest.nanos fun n hn => by
    obtain ⟨t, ht, rfl⟩ := List.mem_map.mp hn
    exact (h.isGreatest_longest hne).2 ht
  rw [List.length_map, Nat.nsmul_eq_mul] at hall
  show s.mean.nanos ≤ s.longest.nanos
  rw [h.nanos_mean hne hlength]
  exact Nat.div_le_of_le_mul hall

end Of

/-- Statistics of frame times are in order, whatever the order of the times. -/
theorem ordered_ofTimes (times : List Duration) (hne : times ≠ [])
    (hlength : times.length < 2 ^ 32) (hsum : (times.map nanos).sum < limit) :
    ∃ s, ofTimes times = .ok s ∧ Ordered times s := by
  obtain ⟨s, hs, h⟩ := exists_ofTimes hsum
  have hdivisor := h.toNat_divisor hlength
  refine ⟨s, hs, h.mem_percentile hne, h.monotone_percentile hne, h.percentile_zero hne,
    fun _ => h.percentile_of_le, h.isLeast_shortest hne, h.isGreatest_longest hne, h.total,
    h.nanos_mean hne hlength, ⟨h.shortest_le_mean hne hlength, h.mean_le_longest hne hlength⟩,
    fun p => ⟨?_, h.rank_lt hne p⟩, ⟨hdivisor, fun hzero => ?_⟩, fun times' hperm => ?_⟩
  · rw [h.frames_eq]
    have hmin := Nat.mul_le_mul_left times.length (Nat.min_le_right p 100)
    omega
  · rw [hzero] at hdivisor
    exact hne (List.length_eq_zero_iff.mp hdivisor.symm)
  · have hsame : (times'.map nanos).sum = (times.map nanos).sum := (hperm.map nanos).sum_eq
    obtain ⟨s', hs', h'⟩ := exists_ofTimes (hsame ▸ hsum)
    rw [hs', h.unique h' hperm]

/-- Five times, one far longer than the others, and their mean. -/
theorem ordered_ofTimes_sample : sampleTimes ≠ [] ∧ sampleTimes.length < 2 ^ 32 ∧
    (sampleTimes.map nanos).sum < limit ∧
    ∃ s, ofTimes sampleTimes = .ok s ∧ Ordered sampleTimes s ∧ s.mean.nanos = 4000000 := by
  have hne : sampleTimes ≠ [] := by decide
  have hlength : sampleTimes.length < 2 ^ 32 := by decide
  have hsum : (sampleTimes.map nanos).sum < limit := by decide
  obtain ⟨s, hs, h⟩ := ordered_ofTimes sampleTimes hne hlength hsum
  exact ⟨hne, hlength, hsum, s, hs, h, by rw [h.mean]; decide⟩

end FrameStats

end Tether
