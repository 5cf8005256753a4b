/-
Instructions as assembly text. Peripherals and channels carry a letter,
an address or register value is written in eight hexadecimal digits, and
a condition is a letter behind the mnemonic.
-/
import DmaController.Instruction.Encoding
import DmaController.Log

namespace DmaController

/-- The letter a condition puts behind the mnemonic. -/
def Condition.letter : Condition → String
  | .always => ""
  | .single => "S"
  | .burst => "B"

/-- The letter of a request kind. -/
def RequestKind.letter : RequestKind → String
  | .single => "S"
  | .burst => "B"

/-- The word for what is awaited. -/
def AwaitedRequest.word : AwaitedRequest → String
  | .single => "single"
  | .periph => "periph"
  | .burst => "burst"

/-- A loop counter's digit. -/
def LoopCounter.digit : LoopCounter → String
  | .zero => "0"
  | .one => "1"

/-- A register's name in a move. -/
def MoveTarget.name : MoveTarget → String
  | .sourceAddress => "SAR"
  | .channelControl => "CCR"
  | .destinationAddress => "DAR"

/-- A register's name in an addition. -/
def AddressRegister.name : AddressRegister → String
  | .source => "Sar"
  | .destination => "Dar"

namespace Instruction

/-- The line of assembly an instruction stands for. -/
def text : Instruction → String
  | finish => "DMAEND"
  | kill => "DMAKILL"
  | nop => "DMANOP"
  | rmb => "DMARMB"
  | wmb => "DMAWMB"
  | stz => "DMASTZ"
  | ld condition => s!"DMALD{condition.letter}"
  | st condition => s!"DMAST{condition.letter}"
  | ldp kind periph => s!"DMALDP{kind.letter} P{periph}"
  | stp kind periph => s!"DMASTP{kind.letter} P{periph}"
  | lp counter iterations => s!"DMALP_{counter.digit} {iterations}"
  | lpend counter condition jump =>
    s!"DMALPEND{condition.letter}_{counter.digit} bjmp {jump}"
  | wfp awaited periph => s!"DMAWFP P{periph}, {awaited.word}"
  | flushp periph => s!"DMAFLUSHP P{periph}"
  | sev event => s!"DMASEV {event}"
  | wfe event false => s!"DMAWFE {event}"
  | wfe event true => s!"DMAWFE {event}, invalid"
  | addh register amount => s!"DMAADDH {register.name}, {Text.hex amount.toNat}"
  | mov register value => s!"DMAMOV {register.name}, {Text.hexWide 8 value.toNat}"
  | go channel pc false => s!"DMAGO C{channel}, {Text.hexWide 8 pc.toNat}"
  | go channel pc true => s!"DMAGO C{channel}, {Text.hexWide 8 pc.toNat}, ns"

/-- What is said when an instruction is written as bytes. -/
def emission (i : Instruction) : Log.Line :=
  .trace s!"emit {i.text}: {Text.hexBytes i.encode}"

end Instruction

end DmaController
