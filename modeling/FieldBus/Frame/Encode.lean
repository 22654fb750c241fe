import FieldBus.Frame.Basic
import FieldBus.Wire.Block
import FieldBus.Wire.Checksum

/-!
# Frames as bytes

The wire form of a frame, where `a`, `p` and `d` are decimal digits and `s` is a sign:

* a read request is `STX a a p p p ETX` and a check byte;
* a write request is `STX a a p p p s d … d ETX` and a check byte, with one to five `d`;
* a value is `STX s d … d ETX` and a check byte;
* an acknowledgement is `ACK`;
* a refusal is `NAK`, or `EOT` if the parameter does not exist;
* a select sequence is `EOT a a ENQ`.

`Frame.encode` fills a block with these bytes; none of them needs more than a block holds.
`Frame.encodeInto` fills the front of a destination that the caller provides.
-/

namespace FieldBus

/-- Ends a checked frame: ETX, and the check byte over everything behind the STX. -/
def Block.close (mode : CheckMode) (block : Block) : Block :=
  let body := block.append [Byte.etx]
  body.append [checkByte mode (body.bytes.drop 1)]

namespace Frame

/-- The bytes of a frame, in a block. -/
def encode (mode : CheckMode) : Frame → Block
  | .request (.read station parameter) =>
    Block.empty.append [Byte.stx]
      |>.append station.field |>.append parameter.field |>.close mode
  | .request (.write station parameter value) =>
    Block.empty.append [Byte.stx]
      |>.append station.field |>.append parameter.field |>.append value.field |>.close mode
  | .request (.select station) =>
    Block.empty.append [Byte.eot] |>.append station.field |>.append [Byte.enq]
  | .reply (.value value) =>
    Block.empty.append [Byte.stx] |>.append value.field |>.close mode
  | .reply .ack => Block.empty.append [Byte.ack]
  | .reply (.refused .commandFailed) => Block.empty.append [Byte.nak]
  | .reply (.refused .invalidParameter) => Block.empty.append [Byte.eot]

/-- Puts the bytes of a frame at the front of a destination, and gives their number.  A
destination shorter than a block is refused, whatever the frame, and stays as it is. -/
def encodeInto (mode : CheckMode) (frame : Frame) (destination : Bytes) :
    Except Fault Nat × Bytes :=
  if destination.length < Block.capacity then
    (.error .overflow, destination)
  else
    let block := frame.encode mode
    (.ok block.size, block.bytes ++ destination.drop block.size)

end Frame

end FieldBus
