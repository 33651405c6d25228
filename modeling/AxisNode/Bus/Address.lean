/-!
# Node addresses

Every node on the bus has an eight-bit address. Some addresses name a group of axes: an axis of a
group answers to its own address, to its group's address and to broadcasts.
-/

namespace AxisNode

/-- The logical address of a node or of a group of axes. -/
inductive NodeAddress where
  | broadcast
  | host
  | gripper
  | gripperZ
  | gripperG
  | gantryX
  | hepaUv
  | gantryY
  | head
  | headL
  | headR
  | pipetteLeft
  | pipetteRight
  | gripperBootloader
  | gantryXBootloader
  | hepaUvBootloader
  | gantryYBootloader
  | headBootloader
  | pipetteLeftBootloader
  | pipetteRightBootloader
deriving DecidableEq, Repr

namespace NodeAddress

/-- The code of an address in an identifier. -/
def code : NodeAddress → UInt8
  | broadcast => 0x00
  | host => 0x10
  | gripper => 0x20
  | gripperZ => 0x21
  | gripperG => 0x22
  | gantryX => 0x30
  | hepaUv => 0x32
  | gantryY => 0x40
  | head => 0x50
  | headL => 0x51
  | headR => 0x52
  | pipetteLeft => 0x60
  | pipetteRight => 0x70
  | gripperBootloader => 0x2f
  | gantryXBootloader => 0x3f
  | hepaUvBootloader => 0x3e
  | gantryYBootloader => 0x4f
  | headBootloader => 0x5f
  | pipetteLeftBootloader => 0x6f
  | pipetteRightBootloader => 0x7f

/-- The name used in log lines. -/
def name : NodeAddress → String
  | broadcast => "Broadcast"
  | host => "Host"
  | gripper => "Gripper"
  | gripperZ => "GripperZ"
  | gripperG => "GripperG"
  | gantryX => "GantryX"
  | hepaUv => "HepaUv"
  | gantryY => "GantryY"
  | head => "Head"
  | headL => "HeadL"
  | headR => "HeadR"
  | pipetteLeft => "PipetteLeft"
  | pipetteRight => "PipetteRight"
  | gripperBootloader => "GripperBootloader"
  | gantryXBootloader => "GantryXBootloader"
  | hepaUvBootloader => "HepaUvBootloader"
  | gantryYBootloader => "GantryYBootloader"
  | headBootloader => "HeadBootloader"
  | pipetteLeftBootloader => "PipetteLeftBootloader"
  | pipetteRightBootloader => "PipetteRightBootloader"

/-- All addresses that have a code. -/
def all : List NodeAddress :=
  [broadcast, host, gripper, gripperZ, gripperG, gantryX, hepaUv, gantryY, head, headL, headR,
    pipetteLeft, pipetteRight, gripperBootloader, gantryXBootloader, hepaUvBootloader,
    gantryYBootloader, headBootloader, pipetteLeftBootloader, pipetteRightBootloader]

/-- The address that carries a code, if the code is assigned. -/
def ofCode? (c : UInt8) : Option NodeAddress := all.find? fun n => n.code == c

@[simp] theorem ofCode?_code (n : NodeAddress) : ofCode? n.code = some n := by
  cases n <;> decide

theorem ofCode?_eq_some_iff {c : UInt8} {n : NodeAddress} : ofCode? c = some n ↔ n.code = c := by
  constructor
  · intro h
    simpa using List.find?_some h
  · rintro rfl
    exact ofCode?_code n

/-- The group an axis of a multi-axis node also answers to. -/
def groupAlias : NodeAddress → Option NodeAddress
  | gripperZ | gripperG => some gripper
  | headL | headR => some head
  | _ => none

/-- Whether a frame addressed to the code `target` is meant for this node. -/
def accepts (n : NodeAddress) (target : UInt8) : Bool :=
  target == broadcast.code || target == n.code || n.groupAlias.any (·.code == target)

theorem accepts_iff {n : NodeAddress} {target : UInt8} :
    n.accepts target ↔
      target = broadcast.code ∨ target = n.code ∨ ∃ g, n.groupAlias = some g ∧ g.code = target := by
  cases h : n.groupAlias <;> simp [accepts, h, or_assoc]

end NodeAddress

end AxisNode
