import Mathlib

/-!
# `DirectIOWritableFile`: the page-buffered `O_DIRECT` sink

The constructor, `write` and the destructor of `DirectIOWritableFile`
(`common/s3util.cpp`), over a file whose `::write` replies come from a kernel
oracle.

* `u32`: every conversion to `uint32_t` the code performs: `static_cast` of the
  `streamsize` argument, the `int32 * uint32` product that sizes the buffer,
  and `uint32_t` subtraction and addition in the copy loop.
* `copyLoop`: the `while (remaining > 0)` loop, on explicit fuel, since for
  `buffer_size_ = 0` it does not terminate.
-/

namespace Rocksplicator

/-- Conversion of an integer to `uint32_t`: reduction modulo `2^32`. -/
def u32 (x : Int) : Nat := (x % 2 ^ 32).toNat

theorem u32_lt (x : Int) : u32 x < 2 ^ 32 := by
  unfold u32; omega

theorem u32_of_lt {x : Nat} (h : x < 2 ^ 32) : u32 x = x := by
  unfold u32; omega

/-- The file behind `fd_`. The descriptor is only written and, last, truncated,
so its offset is always the file's length. `issued` lists every `::write` as
(file offset, byte count). -/
structure Disk where
  data : List UInt8
  issued : List (Nat × Nat)
deriving Repr, DecidableEq

/-- The file `open(..., O_TRUNC | O_CREAT, ...)` leaves. -/
def Disk.empty : Disk := ⟨[], []⟩

/-- The kernel's reply to the `i`-th `::write` of `count` bytes: the number of
bytes it wrote, or `-1`. -/
def Kernel : Type := Nat → Nat → Int

/-- A kernel that writes every byte it is given. -/
def Kernel.full : Kernel := fun _ c => c

/-- Every `::write` writes all the bytes it is given. -/
def Kernel.Full (k : Kernel) : Prop := ∀ i c, k i c = c

theorem Kernel.full_full : Kernel.full.Full := fun _ _ => rfl

/-- `::write(fd_, buf, count)`: the reply, and the file with the bytes taken. -/
def sysWrite (k : Kernel) (d : Disk) (buf : List UInt8) (count : Nat) : Int × Disk :=
  let r := k d.issued.length count
  (r, ⟨d.data ++ (buf.take count).take r.toNat, d.issued ++ [(d.data.length, count)]⟩)

/-- `ftruncate(fd_, len)`: cut or zero-extend the file; a negative length fails. -/
def ftruncate (d : Disk) (len : Int) : Disk :=
  if len < 0 then d
  else { d with data := d.data.take len.toNat ++ List.replicate (len.toNat - d.data.length) 0 }

@[simp] theorem ftruncate_issued (d : Disk) (len : Int) : (ftruncate d len).issued = d.issued := by
  unfold ftruncate; split_ifs <;> rfl

theorem ftruncate_natCast {d : Disk} {len : Nat} (h : len ≤ d.data.length) :
    ftruncate d len = { d with data := d.data.take len } := by
  simp [ftruncate, Nat.sub_eq_zero_of_le h, show ¬ (len : Int) < 0 by omega]

/-- The fields of `DirectIOWritableFile`. `buffer` is `none` for `nullptr` and
otherwise the page buffer's bytes. `file_size_` is declared in `s3util.h`, which
is not among the sources; it is kept as the exact sum of the accepted `n`. -/
structure DirectIOWritableFile where
  fd : Int
  fileSize : Int
  buffer : Option (List UInt8)
  offset : Nat
  bufferSize : Nat
deriving Repr, DecidableEq

namespace DirectIOWritableFile

/-- The constructor. `nPages` is `FLAGS_direct_io_buffer_n_pages`, `pageSize`
is `kPageSize`, `memalign` says whether `posix_memalign` succeeded, `junk` is
what the fresh buffer holds, and `opened` is what `open` returned. -/
def ctor (nPages : Int) (pageSize : Nat) (memalign : Bool) (junk : Nat → UInt8)
    (opened : Int) : DirectIOWritableFile :=
  let bs := u32 (nPages * pageSize)
  if memalign then
    if opened < 0 then ⟨opened, 0, none, 0, bs⟩
    else ⟨opened, 0, some ((List.range bs).map junk), 0, bs⟩
  else ⟨-1, 0, none, 0, bs⟩

end DirectIOWritableFile

/-- `memcpy(buffer_ + offset_, s, bytes)`. -/
def memcpy (buf : List UInt8) (off : Nat) (src : List UInt8) (bytes : Nat) : List UInt8 :=
  buf.take off ++ src.take bytes ++ buf.drop (off + bytes)

/-- The state of `write`'s copy loop: the page buffer and `offset_`, the file,
and the unread input `s` with its `remaining` count. -/
structure Loop where
  buffer : List UInt8
  offset : Nat
  disk : Disk
  src : List UInt8
  remaining : Nat
deriving Repr, DecidableEq

/-- How a pass of the loop, or the loop, is left: normally, or by `return -1`
after the flush of a full buffer came back short. -/
inductive Exit
  | done (st : Loop)
  | failed (st : Loop)
deriving Repr, DecidableEq

/-- One pass of the copy loop's body, for `buffer_size_ = bs`. -/
def Loop.body (k : Kernel) (bs : Nat) (st : Loop) : Exit :=
  let bytes := min (u32 (bs - st.offset)) st.remaining
  let buf := memcpy st.buffer st.offset st.src bytes
  let off := u32 (st.offset + bytes)
  let rem := u32 (st.remaining - bytes)
  let src := st.src.drop bytes
  if off = bs then
    let w := sysWrite k st.disk buf bs
    if w.1 ≠ bs then .failed ⟨buf, off, w.2, src, rem⟩
    else .done ⟨buf, 0, w.2, src, rem⟩
  else .done ⟨buf, off, st.disk, src, rem⟩

/-- `while (remaining > 0) { ... }` with `fuel` passes; `none` when the fuel
runs out. -/
def copyLoop (k : Kernel) (bs : Nat) : Nat → Loop → Option Exit
  | 0, _ => none
  | fuel + 1, st =>
    if 0 < st.remaining then
      match st.body k bs with
      | .done st' => copyLoop k bs fuel st'
      | .failed st' => some (.failed st')
    else some (.done st)

namespace DirectIOWritableFile

/-- `write(s, n)`: the return value, the writer and the file afterwards. -/
def write (k : Kernel) (fuel : Nat) (f : DirectIOWritableFile) (d : Disk)
    (s : List UInt8) (n : Int) : Option (Int × DirectIOWritableFile × Disk) :=
  match f.buffer with
  | none => some (-1, f, d)
  | some buf =>
    if f.fd < 0 then some (-1, f, d)
    else (copyLoop k f.bufferSize fuel ⟨buf, f.offset, d, s, u32 n⟩).map fun
      | .done st =>
        (n, { f with fileSize := f.fileSize + n, buffer := some st.buffer, offset := st.offset },
          st.disk)
      | .failed st => (-1, { f with buffer := some st.buffer, offset := st.offset }, st.disk)

/-- The destructor: flush a partial last page whole, then cut the file to
`file_size_`. -/
def dtor (k : Kernel) (f : DirectIOWritableFile) (d : Disk) : Disk :=
  match f.buffer with
  | none => d
  | some buf =>
    if f.fd < 0 then d
    else if 0 < f.offset then
      let w := sysWrite k d buf f.bufferSize
      if w.1 ≠ f.bufferSize then w.2 else ftruncate w.2 f.fileSize
    else d

end DirectIOWritableFile

end Rocksplicator
