import BearerAuth.Proofs.Validator.Keys
import Mathlib.Data.List.Nodup

/-!
# BearerAuth — the order in which keys are tried

Of the keys of a set those that fit an algorithm are tried, and those about which more is published
come first. A published algorithm counts for more than a published usage: the scores are chosen so
that comparing them is comparing the one first and the other next (`score_lt_iff`). Keys of which
the same is published have the same score, and then the issuer's order decides, because the sort is
stable.

A set may list one key several times, so the order is stated of positions in the set. There it is
strict, and leaves one possibility: of two positions one comes first (`Ahead`).

Main results:

* `filter_mergeSort`  — a sort by a number keeps elements with the same number in order.
* `pairwise_ranked`   — the keys with their positions are in order.
* `best_first`        — what is chosen, and in which order.
-/

namespace BearerAuth

/-! ## Stable sorts by a number -/

theorem descending_trans (f : α → Nat) (x y z : α) (first : decide (f y ≤ f x) = true)
    (next : decide (f z ≤ f y) = true) : decide (f z ≤ f x) = true :=
  decide_eq_true (Nat.le_trans (of_decide_eq_true next) (of_decide_eq_true first))

theorem descending_total (f : α → Nat) (x y : α) :
    (decide (f y ≤ f x) || decide (f x ≤ f y)) = true := by
  simp only [Bool.or_eq_true, decide_eq_true_eq]
  omega

/-- Sorting by a number, the largest first, keeps the order of elements with the same number. -/
theorem filter_mergeSort (f : α → Nat) (l : List α) (n : Nat) :
    (l.mergeSort fun x y => decide (f y ≤ f x)).filter (f · == n) = l.filter (f · == n) := by
  have class_pairwise : (l.filter (f · == n)).Pairwise fun x y => decide (f y ≤ f x) = true := by
    refine List.pairwise_of_forall_mem_list fun x hx y hy => ?_
    have hx := eq_of_beq (List.mem_filter.mp hx).2
    have hy := eq_of_beq (List.mem_filter.mp hy).2
    exact decide_eq_true (by omega)
  -- so the elements with this number are a part of what is sorted, and no others are left in it
  have part : (l.filter (f · == n)).Sublist (l.mergeSort fun x y => decide (f y ≤ f x)) :=
    List.sublist_mergeSort (descending_trans f) (descending_total f) class_pairwise
      List.filter_sublist
  have within := part.filter (f · == n)
  rw [List.filter_filter] at within
  simp only [Bool.and_self] at within
  refine (within.eq_of_length ?_).symm
  exact ((List.mergeSort_perm l _).filter _).length_eq.symm

/-! ## Preference -/

namespace Key

/-- A key comes before another one, wherever they are listed: an algorithm is published for the one
and not for the other, or, if there is no such difference, a usage. -/
inductive Outranks (k l : Key) : Prop
  | algorithm (here : k.algorithm.isSome = true) (there : l.algorithm.isSome = false)
  | usage (alike : k.algorithm.isSome = l.algorithm.isSome) (here : k.usage.isSome = true)
    (there : l.usage.isSome = false)

/-- The same is published of both keys. -/
structure Alike (k l : Key) : Prop where
  algorithm : k.algorithm.isSome = l.algorithm.isSome
  usage : k.usage.isSome = l.usage.isSome

/-- A key that fits an algorithm and has one published has this one published. -/
theorem Fits.declares {k : Key} {a : Algorithm} (fits : k.Fits a) :
    k.algorithm.isSome = true ↔ k.algorithm = some a := by
  constructor
  · intro published
    obtain ⟨b, here⟩ := Option.isSome_iff_exists.mp published
    rw [here, fits.algorithm b here]
  · intro here
    rw [here]
    rfl

end Key

namespace KeySet

/-- Comparing scores is comparing published algorithms first, and published usages next. There are
sixteen cases, and the score is greater in six of them. -/
theorem score_lt_iff {k l : Key} : score l < score k ↔ k.Outranks l := by
  unfold score
  constructor
  · intro less
    -- what is published of the two keys, and the scores that come of it
    cases ka : k.algorithm.isSome <;> cases la : l.algorithm.isSome <;>
      cases ku : k.usage.isSome <;> cases lu : l.usage.isSome <;>
      simp [ka, la, ku, lu] at less
    case false.false.true.false => exact .usage (ka.trans la.symm) ku lu
    case true.true.true.false => exact .usage (ka.trans la.symm) ku lu
    all_goals exact .algorithm ka la
  · rintro (⟨here, there⟩ | ⟨alike, here, there⟩)
    · rw [here, there]
      cases k.usage.isSome <;> cases l.usage.isSome <;> decide
    · rw [alike, here, there]
      cases l.algorithm.isSome <;> decide

/-- Keys have the same score only if the same is published of both: no usage makes up for an
algorithm. -/
theorem alike_of_score_eq {k l : Key} (h : score k = score l) : k.Alike l := by
  unfold score at h
  cases ka : k.algorithm.isSome <;> cases la : l.algorithm.isSome <;>
    cases ku : k.usage.isSome <;> cases lu : l.usage.isSome <;>
    simp [ka, la, ku, lu] at h
  all_goals exact ⟨ka.trans la.symm, ku.trans lu.symm⟩

/-- Of two keys with their positions in a set, the one that comes first: the one that is preferred,
or, if neither is, the one that is listed first. -/
def Ahead (x y : Key × Nat) : Prop := x.1.Outranks y.1 ∨ x.1.Alike y.1 ∧ x.2 < y.2

/-! ## Keys with their positions -/

variable {s : KeySet} {a : Algorithm}

/-- The keys that fit an algorithm, with their positions. -/
def numbered (s : KeySet) (a : Algorithm) : List (Key × Nat) :=
  s.keys.zipIdx.filter (·.1.isCompatible a)

/-- The keys that fit an algorithm, with their positions, in the order in which they are tried. -/
def ranked (s : KeySet) (a : Algorithm) : List (Key × Nat) :=
  (s.numbered a).mergeSort fun x y => decide (score y.1 ≤ score x.1)

theorem map_snd_ranked : (s.ranked a).map (·.2) = s.compatiblePositions a := rfl

/-- The keys in that order. To sort keys with their positions is to sort the keys, since the
positions are not compared. -/
theorem map_fst_ranked : (s.ranked a).map (·.1) = s.compatible a := by
  have keys : (s.numbered a).map (·.1) = s.keys.filter (·.isCompatible a) := by
    have apart : (s.numbered a).map (·.1) =
        (s.keys.zipIdx.map (·.1)).filter (·.isCompatible a) := by
      rw [List.filter_map]
      rfl
    rw [apart, List.zipIdx_map_fst]
  unfold ranked compatible
  rw [← keys]
  exact List.map_mergeSort fun _ _ _ _ => rfl

theorem mem_ranked {k : Key} {i : Nat} :
    (k, i) ∈ s.ranked a ↔ s.keys[i]? = some k ∧ k.isCompatible a = true := by
  unfold ranked numbered
  rw [List.mem_mergeSort, List.mem_filter, List.mem_zipIdx_iff_getElem?]

theorem pairwise_numbered : (s.numbered a).Pairwise fun x y => x.2 < y.2 := by
  have positions : (s.keys.zipIdx.map (·.2)).Pairwise (· < ·) := by
    rw [List.zipIdx_map_snd]
    exact List.pairwise_lt_range' 1
  exact (List.pairwise_map.mp positions).filter _

theorem nodup_ranked : ((s.ranked a).map (·.2)).Nodup := by
  have distinct : ((s.numbered a).map (·.2)).Nodup :=
    List.pairwise_map.mpr (pairwise_numbered.imp fun less => Nat.ne_of_lt less)
  exact (((List.mergeSort_perm (s.numbered a) _).map (·.2)).nodup_iff).mpr distinct

/-- The keys with their positions are in order. Of two of them, scores decide; where they do not,
the sort has kept the order of the set. -/
theorem pairwise_ranked : (s.ranked a).Pairwise Ahead := by
  let scored (e : Key × Nat) : Nat := score e.1
  have descending : (s.ranked a).Pairwise fun x y => decide (score y.1 ≤ score x.1) = true :=
    List.pairwise_mergeSort (descending_trans scored) (descending_total scored) (s.numbered a)
  rw [List.pairwise_iff_forall_sublist]
  intro x y pair
  have le : score y.1 ≤ score x.1 := of_decide_eq_true (descending.forall_sublist pair)
  rcases Nat.lt_or_eq_of_le le with less | same
  · exact .inl (score_lt_iff.mp less)
  · -- with the same score they are in the order of the set
    have class_pairwise : ((s.ranked a).filter (score ·.1 == score x.1)).Pairwise
        fun x y => x.2 < y.2 := by
      have stable := filter_mergeSort scored (s.numbered a) (score x.1)
      unfold ranked
      rw [stable]
      exact pairwise_numbered.filter _
    have both : [x, y].filter (score ·.1 == score x.1) = [x, y] := by
      simp [same]
    have pair := pair.filter (score ·.1 == score x.1)
    rw [both] at pair
    exact .inr ⟨alike_of_score_eq same.symm, class_pairwise.forall_sublist pair⟩

/-! ## The choice -/

/-- The keys that are tried for an algorithm, and their positions in the set. -/
structure BestFirst (s : KeySet) (a : Algorithm) : Prop where
  /-- Exactly the keys that fit are tried, each as often as it is in the set. -/
  exact : (s.compatible a).Perm (s.keys.filter (·.isCompatible a))
  /-- Of the keys that fit, those for which an algorithm is published are those for which this one
  is. -/
  declared : ∀ k ∈ s.compatible a, k.algorithm.isSome = true ↔ k.algorithm = some a
  /-- The positions are those of the keys. -/
  placed : (s.compatiblePositions a).map (s.keys[·]?) = (s.compatible a).map some
  /-- A position is among them if the key that stands there fits. -/
  chosen : ∀ i, i ∈ s.compatiblePositions a ↔
    ∃ k, s.keys[i]? = some k ∧ k.isCompatible a = true
  /-- No position comes twice. -/
  once : (s.compatiblePositions a).Nodup
  /-- Keys for which an algorithm is published come before those for which none is, keys of which
  that says nothing come in the order of whether a usage is published, and keys of which the same is
  published in the order of the set. -/
  ordered : (s.compatiblePositions a).Pairwise fun i j =>
    ∀ k l, s.keys[i]? = some k → s.keys[j]? = some l → Ahead (k, i) (l, j)

/-- **The best match comes first.** Whatever keys are in the set, the choice for an algorithm is
complete, free of repetition and ordered by preference, and ties are settled by the set. That is
said of positions, which are all different even if keys are listed several times; so there is one
order only that is possible. -/
theorem best_first (s : KeySet) (a : Algorithm) : BestFirst s a where
  exact := List.mergeSort_perm _ _
  declared := fun k hk => (mem_compatible_iff.mp hk).2.declares
  placed := by
    rw [← map_snd_ranked, ← map_fst_ranked, List.map_map, List.map_map]
    exact List.map_congr_left fun x hx => (mem_ranked.mp hx).1
  chosen := by
    intro i
    rw [← map_snd_ranked, List.mem_map]
    constructor
    · rintro ⟨⟨k, i⟩, mem, rfl⟩
      exact ⟨k, mem_ranked.mp mem⟩
    · rintro ⟨k, here⟩
      exact ⟨(k, i), mem_ranked.mpr here, rfl⟩
  once := nodup_ranked
  ordered := by
    rw [← map_snd_ranked, List.pairwise_map]
    -- a position has one key, so the ranked keys are those that stand there
    refine pairwise_ranked.imp_of_mem fun {x y} hx hy ahead k l hk hl => ?_
    obtain rfl : x.1 = k := Option.some.inj ((mem_ranked.mp hx).1.symm.trans hk)
    obtain rfl : y.1 = l := Option.some.inj ((mem_ranked.mp hy).1.symm.trans hl)
    exact ahead

/-- The third key is published for the algorithm, and the second one for signatures. Of the others
nothing is published. -/
example : compatiblePositions ⟨[{ material := .secret [1] },
    { material := .secret [1], usage := some .signing },
    { material := .secret [1], algorithm := some .hs256 },
    { material := .secret [1] }]⟩ .hs256 = [2, 1, 0, 3] := by
  cbv

end KeySet
end BearerAuth
