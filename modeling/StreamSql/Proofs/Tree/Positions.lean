import Mathlib.Data.List.Lex
import Mathlib.Data.List.Sort

/-!
# Walks over trees

A position in a tree is the way to a node, by the numbers of the parts that are entered. In the
order of lists a node stands before its parts, and a part with all below it before the parts on its
right. `DepthFirst` says what is gathered on a walk in this order, when each node gives a list of
its own. The walk gathers one list only (`DepthFirst.eq`), and it is put together from what the
walks over the parts gather (`DepthFirst.step`).
-/
namespace StreamSql

variable {ν α : Type} {parts : ν → List ν} {own : ν → List α} {n : ν}

/-- The node at a position of the tree below a node. -/
def nodeAt? (parts : ν → List ν) : ν → List Nat → Option ν
  | n, [] => some n
  | n, i :: path => (parts n)[i]?.bind fun m => nodeAt? parts m path

/-- What the node at a position gives. -/
def givenAt (parts : ν → List ν) (own : ν → List α) (n : ν) (path : List Nat) : List α :=
  (nodeAt? parts n path).elim [] own

/-- All positions of a tree, each once, in the order of a walk. -/
structure Positions (parts : ν → List ν) (n : ν) (paths : List (List Nat)) : Prop where
  sorted : paths.Pairwise (List.Lex (· < ·))
  mem_iff : ∀ path, path ∈ paths ↔ (nodeAt? parts n path).isSome

/-- What is gathered from the nodes of a tree, depth first and from left to right. -/
def DepthFirst (parts : ν → List ν) (own : ν → List α) (n : ν) (gathered : List α) : Prop :=
  ∃ paths, Positions parts n paths ∧ gathered = paths.flatMap (givenAt parts own n)

theorem Positions.eq {paths others : List (List Nat)} (h : Positions parts n paths)
    (hothers : Positions parts n others) : paths = others := by
  apply h.sorted.eq_of_mem_iff hothers.sorted
  intro path
  rw [h.mem_iff, hothers.mem_iff]

theorem DepthFirst.eq {gathered others : List α} (h : DepthFirst parts own n gathered)
    (hothers : DepthFirst parts own n others) : gathered = others := by
  obtain ⟨paths, hpaths, rfl⟩ := h
  obtain ⟨paths', hpaths', rfl⟩ := hothers
  rw [hpaths.eq hpaths']

section Parts

variable {nodes : List ν} {paths : ν → List (List Nat)}

/-- The positions below a row of parts, from those of each part. -/
def positionsBelow (paths : ν → List (List Nat)) (nodes : List ν) : List (List Nat) :=
  nodes.zipIdx.flatMap fun x => (paths x.1).map (x.2 :: ·)

theorem mem_positionsBelow_iff {path : List Nat} :
    path ∈ positionsBelow paths nodes ↔
      ∃ i m, nodes[i]? = some m ∧ ∃ rest ∈ paths m, i :: rest = path := by
  simp only [positionsBelow, List.mem_flatMap, List.mem_map, Prod.exists,
    List.mem_zipIdx_iff_getElem?]
  exact exists_comm

theorem positionsBelow_sorted (h : ∀ m ∈ nodes, (paths m).Pairwise (List.Lex (· < ·))) :
    (positionsBelow paths nodes).Pairwise (List.Lex (· < ·)) := by
  have hnumbers : nodes.zipIdx.Pairwise (fun x y => x.2 < y.2) := by
    rw [← List.pairwise_map, List.zipIdx_map_snd]
    exact List.pairwise_lt_range'
  apply List.pairwise_flatMap.mpr
  constructor
  · rintro ⟨m, i⟩ hm
    have hpart : m ∈ nodes := List.fst_mem_of_mem_zipIdx hm
    rw [List.pairwise_map]
    exact (h m hpart).imp fun hlt => .cons hlt
  · refine hnumbers.imp fun hlt => ?_
    simp only [List.forall_mem_map]
    intro _ _ _ _
    exact .rel hlt

theorem flatMap_positionsBelow :
    (positionsBelow paths (parts n)).flatMap (givenAt parts own n) =
      (parts n).flatMap fun m => (paths m).flatMap (givenAt parts own m) := by
  have hpart : ∀ x ∈ (parts n).zipIdx,
      ((paths x.1).map (x.2 :: ·)).flatMap (givenAt parts own n) =
        (paths x.1).flatMap (givenAt parts own x.1) := by
    rintro ⟨m, i⟩ hm
    have hat : (parts n)[i]? = some m := List.mem_zipIdx_iff_getElem?.mp hm
    rw [List.flatMap_map]
    refine List.flatMap_congr fun path _ => ?_
    simp [givenAt, nodeAt?, hat]
  calc (positionsBelow paths (parts n)).flatMap (givenAt parts own n)
      = (parts n).zipIdx.flatMap fun x => (paths x.1).flatMap (givenAt parts own x.1) := by
        rw [positionsBelow, List.flatMap_assoc]
        exact List.flatMap_congr hpart
    _ = ((parts n).zipIdx.map Prod.fst).flatMap fun m =>
          (paths m).flatMap (givenAt parts own m) := by
        rw [List.flatMap_map]
    _ = (parts n).flatMap fun m => (paths m).flatMap (givenAt parts own m) := by
        rw [List.zipIdx_map_fst]

/-- The root comes first, and then the parts in their order. -/
theorem Positions.step (h : ∀ m ∈ parts n, Positions parts m (paths m)) :
    Positions parts n ([] :: positionsBelow paths (parts n)) where
  sorted := by
    rw [List.pairwise_cons]
    refine ⟨fun path hpath => ?_, positionsBelow_sorted fun m hm => (h m hm).sorted⟩
    obtain ⟨i, m, -, rest, -, rfl⟩ := mem_positionsBelow_iff.mp hpath
    exact .nil
  mem_iff path := by
    cases path with
    | nil => simp [nodeAt?]
    | cons i rest =>
      simp only [List.mem_cons, reduceCtorEq, false_or, mem_positionsBelow_iff, nodeAt?]
      cases hi : (parts n)[i]? with
      | none => simp [hi]
      | some m =>
        have hm : m ∈ parts n := List.mem_of_getElem? hi
        simp [hi, (h m hm).mem_iff]

end Parts

/-- If everywhere what is gathered at a node is what it gives and then what is gathered at its
parts, then the walk gathers just that. This is the step from the parts of a node to the node. -/
theorem DepthFirst.step (gathered : ν → List α)
    (heq : gathered n = own n ++ (parts n).flatMap gathered)
    (h : ∀ m ∈ parts n, DepthFirst parts own m (gathered m)) :
    DepthFirst parts own n (gathered n) := by
  choose! paths hpaths hgathered using h
  refine ⟨[] :: positionsBelow paths (parts n), .step hpaths, ?_⟩
  rw [heq, List.flatMap_cons, flatMap_positionsBelow, List.flatMap_congr hgathered]
  rfl

end StreamSql
