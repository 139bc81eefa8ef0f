-- SUMMARY: SmoothMotionAnimationExporter: the text of the .SMInput file, and the tokens it is made of.
import SmoothMotion.Lib.IStream
import SmoothMotion.Unity.Controller

open CSharp Decimal

/-!
# The exporter

`WriteToFile` writes the counts, the stored positions of every bone, the
colliders and one parent index for every bone, each number followed by a blank.
A bone whose parent is not found would be reported and leave no index behind;
for the bones of a tagged controller that does not happen.
-/

structure PlaneCollisionConstraint (K : Type) [Scalar K] where
  planePosition : Vector3d K
  planeRotation : Rotation K
  localNormal : Vector3d K

/-- `Plane.transform.TransformDirection(LocalNormal)`. -/
def PlaneCollisionConstraint.worldNormal {K : Type} [Scalar K] (k : PlaneCollisionConstraint K) :
    Vector3d K := k.planeRotation • k.localNormal

namespace Exporter

variable {ι K : Type} [DecidableEq ι] [Scalar K]

/-! ## Writing -/

section Write

-- How the runtime prints a `float`.
variable (showFloat : K → Text)

def writeFloat (num : K) : Text := showFloat num ++ [' ']

def writeVector (v : Vector3d K) : Text :=
  writeFloat showFloat v.x ++ writeFloat showFloat v.y ++ writeFloat showFloat v.z

/-- `WriteOutput(bone)`. -/
def writeBone (c : SmoothMotionController ι K) (bone : SmoothMotionBone ι K) : Except Exn Text :=
  forRange c.numFrames
    (fun frame output => do
      let info ← bone.getFrameInfo frame
      return output ++ writeVector showFloat info.position) []

/-- `WriteOutput(constraint)`. -/
def writeConstraint (k : PlaneCollisionConstraint K) : Text :=
  writeVector showFloat k.planePosition ++ writeVector showFloat k.worldNormal

/-- `parentIndex`, which is `-1` if the parent is not found. -/
def parentIndex (sk : Skeleton ι K) (c : SmoothMotionController ι K)
    (bone : SmoothMotionBone ι K) : Int :=
  if c.bones.head?.map (·.transform) = some bone.transform then 0
  else
    match c.bones.findIdx? fun x => sk.parent bone.transform = some x.transform with
    | none => -1
    | some i => i

/-- What the last loop writes for one bone, and what it reports. -/
def writeParent (sk : Skeleton ι K) (c : SmoothMotionController ι K)
    (bone : SmoothMotionBone ι K) : Text × List LogEntry :=
  if parentIndex sk c bone = -1 then
    ([], [.error ("Failed to find parent of bone " ++ sk.name bone.transform)])
  else (showInt (parentIndex sk c bone) ++ [' '], [])

/-- The text of the file and what was reported on the way. -/
def writeToFile (sk : Skeleton ι K) (c : SmoothMotionController ι K)
    (constraints : List (PlaneCollisionConstraint K)) : Except Exn (Text × List LogEntry) := do
  let output := showInt c.bones.length ++ [' '] ++ showInt c.numFrames ++ [' '] ++
    showInt constraints.length ++ [' ']
  let output ← forRange c.bones.length
    (fun i output => do
      let bone ← index c.bones i
      return output ++ (← writeBone showFloat c bone)) output
  let output := output ++ constraints.flatMap (writeConstraint showFloat)
  let parents := c.bones.map (writeParent sk c)
  return (output ++ parents.flatMap Prod.fst, parents.flatMap Prod.snd)

end Write

/-! ## The numbers in the file -/

/-- The stored positions, bone after bone, frame after frame. -/
def positionNumbers (c : SmoothMotionController ι K) : List K :=
  c.bones.flatMap fun bone => bone.stored.flatMap fun info => info.position.toList

def colliderNumbers (constraints : List (PlaneCollisionConstraint K)) : List K :=
  constraints.flatMap fun k => k.planePosition.toList ++ k.worldNormal.toList

/-- The numbers printed as `float`s. -/
def exportedNumbers (c : SmoothMotionController ι K)
    (constraints : List (PlaneCollisionConstraint K)) : List K :=
  positionNumbers c ++ colliderNumbers constraints

/-- The index of the parent of bone `b` in the list of bones, `0` for the root. -/
def parentNumber (sk : Skeleton ι K) (b : Nat) : Nat :=
  match sk.tree.preorder[b]?.bind sk.parent with
  | none => 0
  | some p => sk.tree.preorder.idxOf p

/-- Everything in the file, token after token. -/
def fileTokens (showFloat : K → Text) (sk : Skeleton ι K) (c : SmoothMotionController ι K)
    (constraints : List (PlaneCollisionConstraint K)) : List Text :=
  showInt c.bones.length :: showInt c.numFrames :: showInt constraints.length ::
    ((exportedNumbers c constraints).map showFloat ++
      (List.range c.bones.length).map fun b => showInt (parentNumber sk b))

/-! ## The parents of a tagged controller are found -/

section Parents

variable {sk : Skeleton ι K} {c : SmoothMotionController ι K}

theorem parentNumber_zero (sk : Skeleton ι K) : parentNumber sk 0 = 0 := by
  have hparent : sk.parent sk.tree.root = none := by
    simp [Skeleton.parent, RoseTree.parent, RoseTree.ancestors_root sk.distinct]
  unfold parentNumber
  rw [RoseTree.preorder_eq_cons]
  simp [hparent]

/-- The parent of a bone other than the root stands in front of it in the list. -/
theorem parentNumber_lt {b : Nat} (hb : b < sk.tree.preorder.length) (hpos : 0 < b) :
    parentNumber sk b < b := by
  obtain ⟨p, -, hp, hlt⟩ := RoseTree.exists_parent_idxOf_lt sk.distinct hb hpos
  have hparent : sk.tree.preorder[b]?.bind sk.parent = some p := by
    simpa [List.getElem?_eq_getElem hb, Skeleton.parent] using hp
  simpa [parentNumber, hparent] using hlt

theorem parentNumber_le {b : Nat} (hb : b < sk.tree.preorder.length) : parentNumber sk b ≤ b := by
  rcases Nat.eq_zero_or_pos b with rfl | hpos
  · rw [parentNumber_zero]
  · exact (parentNumber_lt hb hpos).le

/-- The exporter finds the parent of every bone. -/
theorem parentIndex_eq (h : c.Tagged sk) {b : Nat} (hb : b < c.bones.length) :
    parentIndex sk c c.bones[b] = parentNumber sk b := by
  have hpos₀ := h.bones_length_pos
  have hlen := h.length_eq
  have hb' : b < sk.tree.preorder.length := by omega
  have hhead : c.bones.head?.map (·.transform) = some sk.tree.preorder[0] := by
    rw [List.head?_eq_getElem?, List.getElem?_eq_getElem hpos₀, Option.map_some,
      h.transform_eq hpos₀ (by omega)]
  rcases Nat.eq_zero_or_pos b with rfl | hpos
  · unfold parentIndex
    rw [hhead, h.transform_eq hb hb', if_pos rfl, parentNumber_zero]
    rfl
  · have hroot : some sk.tree.preorder[0] ≠ some sk.tree.preorder[b] := by
      rw [ne_eq, Option.some.injEq, sk.distinct.getElem_inj_iff]
      omega
    obtain ⟨p, hmem, hp, -⟩ := RoseTree.exists_parent_idxOf_lt sk.distinct hb' hpos
    have hparent : sk.parent sk.tree.preorder[b] = some p := hp
    have hidx : sk.tree.preorder.idxOf p < sk.tree.preorder.length :=
      List.idxOf_lt_length_of_mem hmem
    have hfind : c.bones.findIdx? (fun x => sk.parent sk.tree.preorder[b] = some x.transform) =
        some (sk.tree.preorder.idxOf p) := by
      rw [List.findIdx?_eq_some_iff_getElem]
      refine ⟨by omega, ?_, ?_⟩
      · simp [h.transform_eq _ hidx, hparent]
      · intro j hj
        -- no earlier bone is the parent: the Transforms are distinct
        have hne : p ≠ sk.tree.preorder[j] := by
          intro heq
          have hsame := (List.getElem_idxOf hidx).trans heq
          rw [sk.distinct.getElem_inj_iff] at hsame
          omega
        simpa [h.transform_eq (b := j) (by omega) (by omega), hparent] using hne
    unfold parentIndex
    rw [hhead, h.transform_eq hb hb', if_neg hroot, hfind]
    simp [parentNumber, List.getElem?_eq_getElem hb', hparent]

end Parents

/-! ## The text is the tokens of the file -/

section Text

variable {showFloat : K → Text} {sk : Skeleton ι K} {c : SmoothMotionController ι K}

omit [Scalar K] in
theorem writeVector_eq (v : Vector3d K) :
    writeVector showFloat v = IStream.terminated (v.toList.map showFloat) := by
  simp [writeVector, writeFloat, Vector3d.toList]

theorem writeConstraint_eq (k : PlaneCollisionConstraint K) :
    writeConstraint showFloat k =
      IStream.terminated ((k.planePosition.toList ++ k.worldNormal.toList).map showFloat) := by
  unfold writeConstraint
  rw [writeVector_eq, writeVector_eq, List.map_append, IStream.terminated_append]

omit [DecidableEq ι] in
private theorem writePositions_eq (c : SmoothMotionController ι K) :
    (c.bones.flatMap fun bone => bone.stored.flatMap fun info =>
        writeVector showFloat info.position) =
      IStream.terminated ((positionNumbers c).map showFloat) := by
  simp only [positionNumbers, List.map_flatMap, IStream.terminated_flatMap, writeVector_eq]

private theorem writeColliders_eq (constraints : List (PlaneCollisionConstraint K)) :
    constraints.flatMap (writeConstraint showFloat) =
      IStream.terminated ((colliderNumbers constraints).map showFloat) := by
  simp only [colliderNumbers, List.map_flatMap, IStream.terminated_flatMap, ← writeConstraint_eq]

omit [DecidableEq ι] in
theorem writeBone_eq (h : c.Tagged sk) {bone : SmoothMotionBone ι K} (hbone : bone ∈ c.bones) :
    writeBone showFloat c bone = .ok
      (bone.stored.flatMap fun info => writeVector showFloat info.position) := by
  unfold writeBone
  rw [← h.stored bone hbone]
  apply forRange_append
  intro f output hf
  rw [SmoothMotionBone.getFrameInfo_of_lt hf]
  rfl

theorem writeParent_eq (h : c.Tagged sk) {b : Nat} (hb : b < c.bones.length) :
    writeParent sk c c.bones[b] = (showInt (parentNumber sk b) ++ [' '], []) := by
  have hfound : (parentNumber sk b : Int) ≠ -1 := by omega
  unfold writeParent
  rw [parentIndex_eq h hb, if_neg hfound]

/-- For a tagged controller the text is the tokens of the file, and nothing is
    reported. -/
theorem writeToFile_eq (h : c.Tagged sk) (constraints : List (PlaneCollisionConstraint K)) :
    writeToFile showFloat sk c constraints =
      .ok (IStream.terminated (fileTokens showFloat sk c constraints), []) := by
  have hparents : c.bones.map (writeParent sk c) =
      (List.range c.bones.length).map fun b => (showInt (parentNumber sk b) ++ [' '], []) := by
    apply List.ext_getElem (by simp)
    intro b hb hb'
    simp only [List.length_map] at hb
    simp [writeParent_eq h hb]
  have hbones : ∀ output : Text, forRange c.bones.length
      (fun i output => do
        let bone ← index c.bones (i : Nat)
        return output ++ (← writeBone showFloat c bone)) output =
      .ok (output ++ c.bones.flatMap fun bone =>
        bone.stored.flatMap fun info => writeVector showFloat info.position) := by
    intro output
    apply forRange_append
    intro b output hb
    rw [index_ofNat (List.getElem?_eq_getElem hb), Except.ok_bind,
      writeBone_eq h (List.getElem_mem hb)]
    rfl
  have hindices : ((List.range c.bones.length).map fun b =>
      (showInt (parentNumber sk b) ++ [' '], ([] : List LogEntry))).flatMap Prod.fst =
      IStream.terminated ((List.range c.bones.length).map fun b => showInt (parentNumber sk b)) := by
    rw [List.flatMap_map, IStream.terminated, List.flatMap_map]
  have hreports : ((List.range c.bones.length).map fun b =>
      (showInt (parentNumber sk b) ++ [' '], ([] : List LogEntry))).flatMap Prod.snd = [] := by
    simp
  simp only [writeToFile, hbones, hparents, Except.ok_bind, hindices, hreports, writePositions_eq,
    writeColliders_eq]
  simp [fileTokens, exportedNumbers]
  rfl

end Text

end Exporter
