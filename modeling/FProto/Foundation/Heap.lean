import FProto.Foundation.Endian

/-!
Owns byte slices over arrays in memory: their headers with length and capacity, the
operations that make, cut, read and write them, and the panics of those that leave
their bounds.

Arrays are numbered in the order in which they are made, so what a function makes
stands behind what its caller had. The equations of the operations are stated for a
heap that is split at the array they touch; what stands before it and behind it is
the frame.
-/

namespace FProto.Foundation

/-- All arrays, by number. -/
abbrev Heap := List Bytes

/-- The header of a slice. -/
structure SliceRef where
  array : Nat
  offset : Nat
  len : Nat
  cap : Nat
deriving DecidableEq

/-- Code that reads and writes arrays. It returns, or panics with a text. -/
abbrev HeapCode := StateT Heap (Except String)

namespace Heap

/-- The bytes of an array from a position on are replaced. -/
def splice (array : Bytes) (start : Nat) (bytes : Bytes) : Bytes :=
  array.take start ++ bytes ++ array.drop (start + bytes.length)

def array (heap : Heap) (number : Nat) : Bytes :=
  heap.getD number []

def content (heap : Heap) (ref : SliceRef) : Bytes :=
  ((heap.array ref.array).drop ref.offset).take ref.len

def write (heap : Heap) (ref : SliceRef) (bytes : Bytes) : Heap :=
  heap.set ref.array (splice (heap.array ref.array) ref.offset bytes)

/-- A header lies in its array. -/
structure Valid (heap : Heap) (ref : SliceRef) : Prop where
  made : ref.array < heap.length
  fits : ref.len ≤ ref.cap
  inside : ref.offset + ref.cap ≤ (heap.array ref.array).length

/-! ### Operations -/

/-- `make([]byte, size)`. -/
def make (size : Nat) : HeapCode SliceRef := fun heap =>
  .ok (⟨heap.length, 0, size, size⟩, heap ++ [List.replicate size 0])

/-- A new array that a library fills. -/
def fresh (bytes : Bytes) : HeapCode SliceRef := fun heap =>
  .ok (⟨heap.length, 0, bytes.length, bytes.length⟩, heap ++ [bytes])

/-- `slice[start:stop]`, which may reach up to the capacity. -/
def cut (ref : SliceRef) (start stop : Nat) : HeapCode SliceRef := fun heap =>
  if start ≤ stop ∧ stop ≤ ref.cap then
    .ok (⟨ref.array, ref.offset + start, stop - start, ref.cap - start⟩, heap)
  else .error "runtime error: slice bounds out of range"

def load (ref : SliceRef) : HeapCode Bytes := fun heap =>
  .ok (heap.content ref, heap)

/-- `slice[index] = byte`. -/
def setByte (ref : SliceRef) (index : Nat) (byte : UInt8) : HeapCode Unit := fun heap =>
  if index < ref.len then .ok ((), heap.write { ref with offset := ref.offset + index } [byte])
  else .error "runtime error: index out of range"

/-- `copy(target, source)`, of as many bytes as both have. -/
def copy (target source : SliceRef) : HeapCode Unit := fun heap =>
  .ok ((), heap.write target ((heap.content source).take target.len))

/-- `binary.LittleEndian.PutUint64`. -/
def putUint64 (ref : SliceRef) (value : UInt64) : HeapCode Unit := fun heap =>
  if 8 ≤ ref.len then .ok ((), heap.write ref (littleEndian64 value))
  else .error "runtime error: index out of range"

/-- A reader fills a slice, as `io.ReadFull` does. -/
def readFull (ref : SliceRef) (stream : Bytes) : HeapCode Unit := fun heap =>
  .ok ((), heap.write ref (stream.take ref.len))

/-! ### Equations -/

section Sequence

variable {Value Result : Type} {code : HeapCode Value} {next : Value → HeapCode Result}
  {heap after : Heap} {value : Value} {text : String}

theorem bind_of_ok (returned : code heap = .ok (value, after)) :
    (code >>= next) heap = next value after := by
  show (code heap >>= fun outcome => next outcome.1 outcome.2) = _
  rw [returned]
  rfl

theorem bind_of_panic (panicked : code heap = .error text) :
    (code >>= next) heap = .error text := by
  show (code heap >>= fun outcome => next outcome.1 outcome.2) = _
  rw [panicked]
  rfl

end Sequence

theorem cut_of_le {ref : SliceRef} {start stop : Nat} (heap : Heap) (ordered : start ≤ stop)
    (room : stop ≤ ref.cap) :
    cut ref start stop heap =
      .ok (⟨ref.array, ref.offset + start, stop - start, ref.cap - start⟩, heap) :=
  if_pos ⟨ordered, room⟩

theorem cut_of_lt {ref : SliceRef} {stop : Nat} (heap : Heap) (short : ref.cap < stop) :
    cut ref 0 stop heap = .error "runtime error: slice bounds out of range" :=
  if_neg fun bounds => Nat.not_le.mpr short bounds.2

theorem length_content {heap : Heap} {ref : SliceRef} (valid : heap.Valid ref) :
    (heap.content ref).length = ref.len := by
  have fits := valid.fits
  have inside := valid.inside
  rw [content, List.length_take, List.length_drop]
  omega

section Frame

variable (heap : Heap) (bytes : Bytes) (rest : Heap)

theorem array_append {number : Nat} (made : number < heap.length) :
    (heap ++ rest).array number = heap.array number := by
  rw [array, array, List.getD_eq_getElem?_getD, List.getD_eq_getElem?_getD,
    List.getElem?_append_left made]

theorem array_append_length : (heap ++ bytes :: rest).array heap.length = bytes := by
  rw [array, List.getD_eq_getElem?_getD, List.getElem?_append_right (Nat.le_refl _),
    Nat.sub_self]
  rfl

/-- What is made later does not change what is there. -/
theorem content_append {ref : SliceRef} (made : ref.array < heap.length) :
    (heap ++ rest).content ref = heap.content ref := by
  rw [content, content, array_append heap rest made]

theorem Valid.append {heap : Heap} {ref : SliceRef} (valid : heap.Valid ref) (rest : Heap) :
    (heap ++ rest).Valid ref where
  made := by
    rw [List.length_append]
    exact Nat.lt_add_right _ valid.made
  fits := valid.fits
  inside := by
    rw [array_append heap rest valid.made]
    exact valid.inside

theorem content_made (offset len cap : Nat) :
    (heap ++ bytes :: rest).content ⟨heap.length, offset, len, cap⟩ =
      (bytes.drop offset).take len := by
  rw [content, array_append_length]

/-- The whole of an array. -/
theorem content_whole (cap : Nat) :
    (heap ++ bytes :: rest).content ⟨heap.length, 0, bytes.length, cap⟩ = bytes := by
  rw [content_made, List.drop_zero, List.take_length]

theorem write_made (offset len cap : Nat) (written : Bytes) :
    (heap ++ bytes :: rest).write ⟨heap.length, offset, len, cap⟩ written =
      heap ++ splice bytes offset written :: rest := by
  rw [write, array_append_length, List.set_append_right _ _ (Nat.le_refl _), Nat.sub_self]
  rfl

theorem setByte_made {index len : Nat} (offset cap : Nat) (byte : UInt8) (inside : index < len) :
    setByte ⟨heap.length, offset, len, cap⟩ index byte (heap ++ bytes :: rest) =
      .ok ((), heap ++ splice bytes (offset + index) [byte] :: rest) := by
  rw [setByte, if_pos inside, write_made]

theorem copy_made (offset len cap : Nat) (source : SliceRef) :
    copy ⟨heap.length, offset, len, cap⟩ source (heap ++ bytes :: rest) =
      .ok ((), heap ++
        splice bytes offset (((heap ++ bytes :: rest).content source).take len) :: rest) := by
  rw [copy, write_made]

theorem putUint64_made {len : Nat} (offset cap : Nat) (value : UInt64) (room : 8 ≤ len) :
    putUint64 ⟨heap.length, offset, len, cap⟩ value (heap ++ bytes :: rest) =
      .ok ((), heap ++ splice bytes offset (littleEndian64 value) :: rest) := by
  rw [putUint64, if_pos room, write_made]

theorem readFull_made (offset len cap : Nat) (stream : Bytes) :
    readFull ⟨heap.length, offset, len, cap⟩ stream (heap ++ bytes :: rest) =
      .ok ((), heap ++ splice bytes offset (stream.take len) :: rest) := by
  rw [readFull, write_made]

end Frame

/-! ### Splicing -/

theorem splice_append (first second written : Bytes) (same : written.length = second.length) :
    splice (first ++ second) first.length written = first ++ written := by
  rw [splice, List.take_left, same, ← List.length_append, List.drop_length, List.append_nil]

theorem splice_zero (first second written : Bytes) (same : written.length = first.length) :
    splice (first ++ second) 0 written = written ++ second := by
  rw [splice, List.take_zero, List.nil_append, same, Nat.zero_add, List.drop_left]

theorem splice_all {array written : Bytes} (same : written.length = array.length) :
    splice array 0 written = written := by
  have all := splice_zero array [] written same
  rwa [List.append_nil, List.append_nil] at all

theorem splice_singleton (first second : Bytes) (old byte : UInt8) :
    splice (first ++ old :: second) first.length [byte] = first ++ byte :: second := by
  have tail : (first ++ old :: second).drop (first.length + 1) = second := by
    rw [← List.drop_drop, List.drop_left]
    rfl
  rw [splice, List.take_left, List.length_singleton, tail, List.append_assoc]
  rfl

end Heap

end FProto.Foundation
