import AxisNode.Bus.Address
import AxisNode.Bus.Kind

/-!
# Frame identifiers

A frame carries a 29-bit identifier: the function in the low seven bits, the addressed node in the
next eight and the kind of message in the upper fourteen. `word_ofWord` and `ofWord_word` say that
the fields and the word determine each other.
-/

namespace AxisNode

/-- The fields of an identifier, each of its own width. -/
structure FrameId where
  message : BitVec 14
  node : UInt8
  function : BitVec 7
deriving DecidableEq, Repr

namespace FrameId

/-- The identifier as one word. -/
def word (id : FrameId) : BitVec 29 := id.message ++ id.node.toBitVec ++ id.function

/-- Cuts a word of 29 bits into the fields. -/
def ofWord (w : BitVec 29) : FrameId where
  message := w.extractLsb' 15 14
  node := ⟨w.extractLsb' 7 8⟩
  function := w.extractLsb' 0 7

@[simp] theorem ofWord_word (id : FrameId) : ofWord id.word = id := by
  obtain ⟨m, ⟨n⟩, f⟩ := id
  simp only [ofWord, word, mk.injEq, UInt8.ofBitVec.injEq]
  refine ⟨?_, ?_, ?_⟩ <;> apply BitVec.eq_of_getLsbD_eq <;> intro i hi <;>
    simp only [BitVec.getLsbD_extractLsb', BitVec.getLsbD_append] <;> grind

@[simp] theorem word_ofWord (w : BitVec 29) : (ofWord w).word = w := by
  apply BitVec.eq_of_getLsbD_eq
  intro i hi
  simp only [word, ofWord, BitVec.getLsbD_append, BitVec.getLsbD_extractLsb']
  grind

theorem word_inj {a b : FrameId} : a.word = b.word ↔ a = b :=
  ⟨fun h => by rw [← ofWord_word a, h, ofWord_word], fun h => h ▸ rfl⟩

/-- Reads an identifier from 32 bits; the top three are ignored. -/
def ofRaw (raw : UInt32) : FrameId := ofWord (raw.toBitVec.setWidth 29)

/-- The identifier in a word of 32 bits, with the three upper ones clear. -/
def raw (id : FrameId) : UInt32 := ⟨id.word.setWidth 32⟩

theorem setWidth_raw (id : FrameId) : id.raw.toBitVec.setWidth 29 = id.word := by
  simp [raw]

/-- An identifier is read back from the bits that it is sent as. -/
@[simp] theorem ofRaw_raw (id : FrameId) : ofRaw id.raw = id := by
  rw [ofRaw, setWidth_raw, ofWord_word]

/-- Packs raw fields, keeping the low bits of each. -/
def pack (node : UInt8) (message : UInt16) (function : UInt8) : FrameId where
  message := message.toBitVec.setWidth 14
  node := node
  function := function.toBitVec.setWidth 7

/-- The identifier of a message for `node`. -/
def make (node : NodeAddress) (kind : MessageKind) (function : FunctionCode) : FrameId :=
  pack node.code kind.code function.code

/-- The message field as a code. -/
def messageCode (id : FrameId) : UInt16 := ⟨id.message.setWidth 16⟩

/-- The function field as a code. -/
def functionCode (id : FrameId) : UInt8 := ⟨id.function.setWidth 8⟩

/-- The address that an identifier names, if it is known. -/
def address? (id : FrameId) : Option NodeAddress := NodeAddress.ofCode? id.node

/-- The kind of message that an identifier names, if it is known. -/
def kind? (id : FrameId) : Option MessageKind := MessageKind.ofCode? id.messageCode

/-- The function that an identifier names, if it is known. -/
def function? (id : FrameId) : Option FunctionCode := FunctionCode.ofCode? id.functionCode

@[simp] theorem node_make (n : NodeAddress) (k : MessageKind) (f : FunctionCode) :
    (make n k f).node = n.code := rfl

@[simp] theorem address?_make (n : NodeAddress) (k : MessageKind) (f : FunctionCode) :
    (make n k f).address? = some n := by simp [address?]

@[simp] theorem kind?_make (n : NodeAddress) (k : MessageKind) (f : FunctionCode) :
    (make n k f).kind? = some k := by cases k <;> rfl

@[simp] theorem function?_make (n : NodeAddress) (k : MessageKind) (f : FunctionCode) :
    (make n k f).function? = some f := by cases f <;> rfl

end FrameId

end AxisNode
