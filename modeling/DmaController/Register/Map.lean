/-
Where the registers stand in a register window. A window is 4 KiB wide;
the registers of a channel repeat at a fixed distance from those of the
channel before it.
-/
namespace DmaController.Register

/-- The size of a register window. -/
def windowSize : UInt64 := 0x1000

-- ============================================================= manager

/-- Manager status. -/
def dsr : UInt64 := 0x000

/-- Manager program counter. -/
def dpc : UInt64 := 0x004

/-- Interrupt enable. -/
def inten : UInt64 := 0x020

/-- Events and interrupts before masking. -/
def intEventRis : UInt64 := 0x024

/-- Interrupts after masking. -/
def intmis : UInt64 := 0x028

/-- Interrupt clear. -/
def intclr : UInt64 := 0x02c

/-- Whether the manager is faulting. -/
def fsrd : UInt64 := 0x030

/-- Which channels are faulting. -/
def fsrc : UInt64 := 0x034

/-- Fault type of the manager. -/
def ftrd : UInt64 := 0x038

-- ===================================================== debug interface

/-- Debug status; bit 0 is set while the interface is busy. -/
def dbgstatus : UInt64 := 0xd00

/-- Debug command. -/
def dbgcmd : UInt64 := 0xd04

/-- First half of the debug instruction. -/
def dbginst0 : UInt64 := 0xd08

/-- Second half of the debug instruction. -/
def dbginst1 : UInt64 := 0xd0c

-- ======================================================= configuration

/-- Configuration register 0. -/
def cr0 : UInt64 := 0xe00

/-- Data bus and buffer configuration. -/
def crd : UInt64 := 0xe14

/-- The first of four peripheral identification registers. -/
def periphId0 : UInt64 := 0xfe0

/-- The first of four component identification registers. -/
def pcellId0 : UInt64 := 0xff0

/-- The peripheral identification, revision left out. -/
def periphId : UInt32 := 0x00041330

/-- The bits of the peripheral identification that do not depend on the
revision. -/
def periphIdMask : UInt32 := 0x000fffff

/-- The component identification. -/
def pcellId : UInt32 := 0xb105f00d

-- ============================================================ channels

/-- Fault type of a channel. -/
def ftr (channel : UInt8) : UInt64 := 0x040 + channel.toUInt64 * 0x4

/-- Status of a channel. -/
def csr (channel : UInt8) : UInt64 := 0x100 + channel.toUInt64 * 0x8

/-- Program counter of a channel. -/
def cpc (channel : UInt8) : UInt64 := 0x104 + channel.toUInt64 * 0x8

/-- Source address of a channel. -/
def sar (channel : UInt8) : UInt64 := 0x400 + channel.toUInt64 * 0x20

/-- Destination address of a channel. -/
def dar (channel : UInt8) : UInt64 := sar channel + 0x4

/-- Channel control. -/
def ccr (channel : UInt8) : UInt64 := sar channel + 0x8

/-- Loop counter 0 of a channel. -/
def lc0 (channel : UInt8) : UInt64 := sar channel + 0xc

/-- Loop counter 1 of a channel. -/
def lc1 (channel : UInt8) : UInt64 := sar channel + 0x10

end DmaController.Register
