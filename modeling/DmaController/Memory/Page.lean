/-
A page: a fixed number of bytes, held compactly. Memory is an array of
pages so that a large memory of which little is used costs little: all
untouched pages are one and the same page of zeros.
-/
namespace DmaController

/-- The bytes of a page. -/
def pageSize : Nat := 4096

/-- A page of memory. -/
structure Page where
  bytes : ByteArray
  size_eq : bytes.size = pageSize

namespace Page

/-- A place of a page is a place of its bytes. -/
theorem lt_size (page : Page) (i : Fin pageSize) : i.val < page.bytes.size :=
  Nat.lt_of_lt_of_eq i.isLt page.size_eq.symm

/-- A page that was never written. -/
def zero : Page where
  bytes := ⟨Array.replicate pageSize 0⟩
  size_eq := Array.size_replicate

/-- The byte at a place of the page. -/
def get (page : Page) (i : Fin pageSize) : UInt8 :=
  page.bytes.get i.val (page.lt_size i)

/-- Writes the byte at a place of the page. -/
def set (page : Page) (i : Fin pageSize) (value : UInt8) : Page where
  bytes := page.bytes.set i.val value (page.lt_size i)
  size_eq := (Array.size_set _).trans page.size_eq

@[simp] theorem get_zero (i : Fin pageSize) : zero.get i = 0 :=
  Array.getElem_replicate _

theorem get_set (page : Page) (i j : Fin pageSize) (value : UInt8) :
    (page.set i value).get j = if i = j then value else page.get j := by
  simp only [Fin.ext_iff]
  exact Array.getElem_set (page.lt_size i) ((page.set i value).lt_size j)

end Page

end DmaController
