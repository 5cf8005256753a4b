/-
The things that can be written as an argument: a transfer request, the
setup of a driver, a region of memory, and single names and numbers.
Each name a type has is listed in every spelling that is understood.
-/
import DmaController.Argument.Grammar
import DmaController.Driver.Basic
import DmaController.Transfer.Request

namespace DmaController

-- =============================================================== names

def Variant.names : List (String × Variant) :=
  [("pl330", .pl330), ("Pl330", .pl330), ("dma330", .dma330), ("Dma330", .dma330)]

def Security.names : List (String × Security) :=
  [("secure", .secure), ("Secure", .secure), ("ns", .nonSecure), ("non_secure", .nonSecure),
    ("NonSecure", .nonSecure)]

def Direction.names : List (String × Direction) :=
  [("mem2mem", .memoryToMemory), ("Mem2Mem", .memoryToMemory), ("mem2periph", .memoryToPeriph),
    ("Mem2Periph", .memoryToPeriph), ("periph2mem", .periphToMemory),
    ("Periph2Mem", .periphToMemory)]

def Swap.names : List (String × Swap) :=
  [("none", .none), ("None", .none), ("16", .bits16), ("Bits16", .bits16), ("32", .bits32),
    ("Bits32", .bits32), ("64", .bits64), ("Bits64", .bits64), ("128", .bits128),
    ("Bits128", .bits128)]

-- ============================================================= records

/-- A region of memory. -/
structure Region where
  address : UInt32
  size : UInt32
  deriving DecidableEq

namespace Argument

/-- Reads a transfer request. -/
def request : List Char → Except Fault Request :=
  record (Request.memoryToMemory 0 0 0 0) [
    .of "src" true number32 fun source req => { req with source },
    .of "dst" true number32 fun destination req => { req with destination },
    .of "size" true number32 fun size req => { req with size },
    .of "burst_size" true number8 fun burstSize req => { req with burstSize },
    .of "burst_len" false number8 fun burstLength req => { req with burstLength },
    .of "single_burst_size" false number8 fun singleBurstSize req =>
      { req with singleBurstSize },
    .of "periph" false number8 fun periph req => { req with periph },
    .of "kind" false (fieldName Direction.names) fun direction req => { req with direction },
    .of "cache" false switch fun cache req => { req with cache },
    .of "security" false (fieldName Security.names) fun security req => { req with security },
    .of "swap" false (fieldName Swap.names) fun swap req => { req with swap }]

/-- Reads the setup of a driver. -/
def driverConfig : List Char → Except Fault DriverConfig :=
  record { base := 0 } [
    .of "variant" false (fieldName Variant.names) fun variant config => { config with variant },
    .of "base" true number64 fun base config => { config with base },
    .of "security" false (fieldName Security.names) fun security config =>
      { config with security },
    .of "debug_timeout_ms" false number32 fun debugTimeoutMs config =>
      { config with debugTimeoutMs },
    .of "settle_timeout_ms" false number32 fun settleTimeoutMs config =>
      { config with settleTimeoutMs }]

/-- Reads a region of memory. -/
def region : List Char → Except Fault Region :=
  record ⟨0, 0⟩ [
    .of "addr" true number32 fun address region => { region with address },
    .of "size" true number32 fun size region => { region with size }]

def variant : List Char → Except Fault Variant := single (name Variant.names)

def security : List Char → Except Fault Security := single (name Security.names)

def word32 : List Char → Except Fault UInt32 := single number32

def word64 : List Char → Except Fault UInt64 := single number64

end Argument

end DmaController
