import Rocksplicator.DirectIO.Loop

/-!
# The writer keeps exactly what it accepted

The bytes a writer holds are those the file got followed by the page buffer up
to `offset_` (`content`). While every `::write` writes the whole page:

* `write_full`: a call `write(s, n)` with `0 ≤ n < 2^32` returns `n`, appends
  `s[0, n)` to the content and `n` to `file_size_`, and leaves the file a whole
  number of pages, each written at a page boundary.
* `dtor_full`: the destructor's padded last page and `ftruncate` leave the file
  holding exactly the content.
* `write_run_keeps_inputs`: from the constructor, through any sequence of such
  calls, to the destructor.
-/

namespace Rocksplicator

/-- Every `::write` so far wrote one whole page at a page boundary, and the file
is a whole number of pages. -/
def Aligned (bs : Nat) (d : Disk) : Prop :=
  (∀ p ∈ d.issued, p.2 = bs ∧ bs ∣ p.1) ∧ bs ∣ d.data.length

theorem aligned_empty (bs : Nat) : Aligned bs Disk.empty :=
  ⟨by simp [Disk.empty], by simp [Disk.empty]⟩

/-- Flushing a whole page keeps the file aligned. -/
theorem Aligned.flush {bs : Nat} {d : Disk} (h : Aligned bs d) {buf : List UInt8}
    (hlen : buf.length = bs) : Aligned bs ⟨d.data ++ buf, d.issued ++ [(d.data.length, bs)]⟩ := by
  refine ⟨fun p hp => ?_, ?_⟩
  · rcases List.mem_append.1 hp with hp | hp
    · exact h.1 p hp
    · simp only [List.mem_singleton] at hp; subst hp; exact ⟨rfl, h.2⟩
  · simpa [hlen] using Nat.dvd_add h.2 (Nat.dvd_refl bs)

/-- A full kernel hands the whole buffer to the file. -/
theorem sysWrite_full {k : Kernel} (hk : k.Full) (d : Disk) {buf : List UInt8} {bs : Nat}
    (hlen : buf.length = bs) :
    sysWrite k d buf bs = ((bs : Int), ⟨d.data ++ buf, d.issued ++ [(d.data.length, bs)]⟩) := by
  subst hlen
  simp [sysWrite, hk d.issued.length buf.length]

theorem memcpy_length {buf src : List UInt8} {off bytes : Nat} (h : off + bytes ≤ buf.length)
    (hs : bytes ≤ src.length) : (memcpy buf off src bytes).length = buf.length := by
  simp only [memcpy, List.length_append, List.length_take, List.length_drop]
  omega

/-- The page up to the copy's end: what it held, then the copied bytes. -/
theorem memcpy_take {buf src : List UInt8} {off bytes : Nat} (h : off ≤ buf.length)
    (hs : bytes ≤ src.length) :
    (memcpy buf off src bytes).take (off + bytes) = buf.take off ++ src.take bytes := by
  rw [memcpy]
  exact List.take_left' (by simp; omega)

/-- The copied bytes followed by the rest still to copy are the input's prefix. -/
theorem spell_step {buf src : List UInt8} {off bytes rem : Nat} (h : off ≤ buf.length)
    (hb : bytes ≤ rem) (hs : rem ≤ src.length) :
    (memcpy buf off src bytes).take (off + bytes) ++ (src.drop bytes).take (rem - bytes) =
      buf.take off ++ src.take rem := by
  rw [memcpy_take h (by omega), List.append_assoc, ← List.take_add, Nat.add_sub_cancel' hb]

/-- The copy loop's invariant towards `target`: the file, the page up to
`offset_` and the input still to copy spell `target`; the page is whole and has
room; the file is aligned. -/
structure Loop.Inv (bs : Nat) (target : List UInt8) (st : Loop) : Prop where
  offset_lt : st.offset < bs
  size_lt : bs < 2 ^ 32
  buffer_length : st.buffer.length = bs
  remaining_le : st.remaining ≤ st.src.length
  remaining_lt : st.remaining < 2 ^ 32
  spells : st.disk.data ++ st.buffer.take st.offset ++ st.src.take st.remaining = target
  aligned : Aligned bs st.disk

variable {k : Kernel} {bs : Nat} {target : List UInt8} {st : Loop}

/-- A `::write` of a whole page that reports the page's size handed it all. -/
theorem sysWrite_of_eq {k : Kernel} {d : Disk} {buf : List UInt8} {bs : Nat}
    (hlen : buf.length = bs) (h : (sysWrite k d buf bs).1 = bs) :
    (sysWrite k d buf bs).2 = ⟨d.data ++ buf, d.issued ++ [(d.data.length, bs)]⟩ := by
  simp only [sysWrite] at h ⊢
  rw [h]
  simp [← hlen]

/-- Any `::write` hands the file a prefix of the buffer. -/
theorem sysWrite_prefix (k : Kernel) (d : Disk) (buf : List UInt8) (bs : Nat) :
    ∃ j ≤ bs, (sysWrite k d buf bs).2.data = d.data ++ buf.take j :=
  ⟨min (k d.issued.length bs).toNat bs, Nat.min_le_right _ _, by simp [sysWrite, List.take_take]⟩

/-- **One pass from the invariant**, whatever the kernel replies: it copies at
least one byte, and either keeps the invariant or fails with a full page, of
which the file got a prefix, and which spells `target` with the rest of the
input. -/
theorem body_any (hi : st.Inv bs target) (h0 : 0 < st.remaining) :
    (st.body k bs).state.remaining < st.remaining ∧
      (∀ st', st.body k bs = .done st' → st'.Inv bs target) ∧
      (∀ st', st.body k bs = .failed st' → st'.offset = bs ∧ st'.buffer.length = bs ∧
        (∃ j ≤ bs, st'.disk.data = st.disk.data ++ st'.buffer.take j) ∧
        st.disk.data ++ st'.buffer ++ st'.src.take st'.remaining = target) := by
  obtain ⟨hoff, hbs, hlen, hle, hlt, hsp, hal⟩ := hi
  have hm : (memcpy st.buffer st.offset st.src (min (bs - st.offset) st.remaining)).length =
      st.buffer.length := memcpy_length (by omega) (by omega)
  have hsp' : (memcpy st.buffer st.offset st.src (min (bs - st.offset) st.remaining)).take
      (st.offset + min (bs - st.offset) st.remaining) ++
      (st.src.drop (min (bs - st.offset) st.remaining)).take
        (st.remaining - min (bs - st.offset) st.remaining) =
      st.buffer.take st.offset ++ st.src.take st.remaining :=
    spell_step (by omega) (Nat.min_le_right _ _) hle
  have hM : (memcpy st.buffer st.offset st.src (min (bs - st.offset) st.remaining)).take bs =
      memcpy st.buffer st.offset st.src (min (bs - st.offset) st.remaining) :=
    List.take_of_length_le (by omega)
  rw [body_eq hbs hoff.le hlt]
  dsimp only
  split_ifs with h1 h2
  · -- the flush came back short
    refine ⟨by simp only [Exit.state_failed]; omega, by simp, ?_⟩
    rintro _ ⟨⟩
    refine ⟨rfl, hm.trans hlen, sysWrite_prefix _ _ _ _, ?_⟩
    rw [← hsp, List.append_assoc, List.append_assoc, ← hsp', h1, hM]
  · -- the flush wrote the whole page
    refine ⟨by simp only [Exit.state_done]; omega, ?_, by simp⟩
    rintro _ ⟨⟩
    rw [sysWrite_of_eq (hm.trans hlen) (not_not.1 h2)]
    refine ⟨by dsimp only; omega, hbs, hm.trans hlen, by simp; omega, by dsimp only; omega, ?_,
      hal.flush (hm.trans hlen)⟩
    dsimp only
    rw [List.take_zero, List.append_nil, ← hsp, List.append_assoc, List.append_assoc, ← hsp', h1, hM]
  · -- no flush
    refine ⟨by simp only [Exit.state_done]; omega, ?_, by simp⟩
    rintro _ ⟨⟩
    refine ⟨by dsimp only; omega, hbs, hm.trans hlen, by dsimp only; rw [List.length_drop]; omega,
      by dsimp only; omega, ?_, hal⟩
    dsimp only
    rw [← hsp, List.append_assoc, List.append_assoc, hsp']

/-- When every `::write` is whole, a pass from the invariant goes on. -/
theorem body_full (hk : k.Full) (hi : st.Inv bs target) (h0 : 0 < st.remaining) :
    ∃ st', st.body k bs = .done st' ∧ st'.Inv bs target ∧ st'.remaining < st.remaining := by
  obtain ⟨hr, hdone, -⟩ := body_any (k := k) hi h0
  cases he : st.body k bs with
  | done st' => exact ⟨st', rfl, hdone st' he, by simpa [he] using hr⟩
  | failed st' =>
    have hbs := hi.size_lt
    have hoff := hi.offset_lt
    rw [body_eq hbs hoff.le hi.remaining_lt] at he
    dsimp only at he
    split_ifs at he with h1 h2
    rw [sysWrite_full hk _ (by rw [memcpy_length (by have := hi.buffer_length; omega)
      (by have := hi.remaining_le; omega)]; exact hi.buffer_length)] at h2
    exact absurd rfl h2

/-- **The loop keeps the invariant to its end**: with fuel beyond `remaining`
it copies the whole input, and the file and page then spell `target`. -/
theorem copyLoop_full (hk : k.Full) :
    ∀ fuel st, st.Inv bs target → st.remaining < fuel →
      ∃ st', copyLoop k bs fuel st = some (.done st') ∧ st'.Inv bs target ∧
        st'.disk.data ++ st'.buffer.take st'.offset = target
  | 0, _, _, h => by omega
  | fuel + 1, st, hi, hfuel => by
    simp only [copyLoop]
    split_ifs with h0
    · obtain ⟨st', he, hi', hlt⟩ := body_full hk hi h0
      rw [he]
      exact copyLoop_full hk fuel st' hi' (by omega)
    · refine ⟨st, rfl, hi, ?_⟩
      have := hi.spells
      rwa [show st.remaining = 0 by omega, List.take_zero, List.append_nil] at this

namespace DirectIOWritableFile

/-- The bytes the writer holds: those the file got, then the page buffer up to
`offset_`. -/
def content (f : DirectIOWritableFile) (d : Disk) : List UInt8 :=
  d.data ++ (f.buffer.getD []).take f.offset

/-- A writer that holds `acc`: open, with a whole page buffer that has room,
`file_size_` counting `acc`, and an aligned file. -/
structure Valid (f : DirectIOWritableFile) (d : Disk) (acc : List UInt8) : Prop where
  fd_nonneg : 0 ≤ f.fd
  size_pos : 0 < f.bufferSize
  size_lt : f.bufferSize < 2 ^ 32
  offset_lt : f.offset < f.bufferSize
  buffer_length : (f.buffer.getD []).length = f.bufferSize
  content_eq : f.content d = acc
  fileSize_eq : f.fileSize = acc.length
  aligned : Aligned f.bufferSize d

variable {f : DirectIOWritableFile} {d : Disk} {acc : List UInt8}

theorem Valid.buffer_eq (h : f.Valid d acc) : ∃ b, f.buffer = some b ∧ b.length = f.bufferSize := by
  have := h.buffer_length
  cases hb : f.buffer with
  | none => rw [hb] at this; have := h.size_pos; simp at *; omega
  | some b => exact ⟨b, rfl, by simpa [hb] using this⟩

/-- The constructor, when both `posix_memalign` and `open` succeed and the
buffer is not empty, gives a writer holding nothing. -/
theorem ctor_valid {nPages : Int} {pageSize : Nat} {junk : Nat → UInt8} {fd : Int}
    (hfd : 0 ≤ fd) (hbs : 0 < u32 (nPages * pageSize)) :
    (ctor nPages pageSize true junk fd).Valid Disk.empty [] := by
  simp only [ctor, if_true, show ¬ fd < 0 by omega, if_false]
  exact ⟨hfd, hbs, u32_lt _, hbs, by simp, by simp [content, Disk.empty], rfl, aligned_empty _⟩

variable {s : List UInt8} {n : Int}

/-- A call `write(s, n)` with `0 ≤ n < 2^32` on a writer holding `acc` enters the
copy loop from its invariant towards `acc ++ s[0, n)`. -/
theorem Valid.loop_inv (hv : f.Valid d acc) {b : List UInt8} (hb : f.buffer = some b)
    (hlen : b.length = f.bufferSize) (hn : 0 ≤ n) (hn' : n < 2 ^ 32) (hs : n ≤ s.length) :
    Loop.Inv f.bufferSize (acc ++ s.take n.toNat) ⟨b, f.offset, d, s, u32 n⟩ := by
  have hu := u32_toNat hn hn'
  refine ⟨hv.offset_lt, hv.size_lt, hlen, by simp only; omega, u32_lt n, ?_, hv.aligned⟩
  rw [← hv.content_eq, content, hb, hu]; rfl

/-- **`write` appends exactly its input**, for `0 ≤ n < 2^32`, when every `::write`
is whole: it returns `n`, the content grows by `s[0, n)` and `file_size_` by `n`. -/
theorem write_full (hv : f.Valid d acc) (hk : k.Full) (hn : 0 ≤ n) (hn' : n < 2 ^ 32)
    (hs : n ≤ s.length) {fuel : Nat} (hfuel : u32 n < fuel) :
    ∃ f' d', f.write k fuel d s n = some (n, f', d') ∧ f'.Valid d' (acc ++ s.take n.toNat) ∧
      f'.bufferSize = f.bufferSize := by
  obtain ⟨b, hb, hlen⟩ := hv.buffer_eq
  obtain ⟨st', hl, hi', hsp⟩ := copyLoop_full hk _ _ (hv.loop_inv hb hlen hn hn' hs) hfuel
  refine ⟨{ f with fileSize := f.fileSize + n, buffer := some st'.buffer, offset := st'.offset },
    st'.disk, ?_, ⟨hv.fd_nonneg, hv.size_pos, hv.size_lt, hi'.offset_lt,
    by simpa using hi'.buffer_length, by simpa [content] using hsp, ?_, hi'.aligned⟩, rfl⟩
  · simp only [write, hb, show ¬ f.fd < 0 by have := hv.fd_nonneg; omega, if_false, hl,
      Option.map_some']
  · simp only [hv.fileSize_eq, List.length_append, List.length_take]
    omega

/-- **The destructor leaves exactly the content** in the file, when its last
`::write` is whole; every `::write` issued, its own included, was one whole
page at a page boundary. -/
theorem dtor_full (hv : f.Valid d acc) (hk : k.Full) :
    (f.dtor k d).data = acc ∧ ∀ p ∈ (f.dtor k d).issued, p.2 = f.bufferSize ∧ f.bufferSize ∣ p.1 := by
  obtain ⟨b, hb, hlen⟩ := hv.buffer_eq
  have hc := hv.content_eq
  simp only [content, hb, Option.getD_some] at hc
  have hfd : ¬ f.fd < 0 := by have := hv.fd_nonneg; omega
  have hoff := hv.offset_lt
  by_cases h0 : 0 < f.offset
  · have hacc : acc.length = d.data.length + f.offset := by rw [← hc]; simp; omega
    simp only [dtor, hb, hfd, h0, if_false, if_true, sysWrite_full hk d hlen, ne_eq,
      not_true_eq_false, hv.fileSize_eq, hacc, ftruncate_issued]
    refine ⟨?_, (hv.aligned.flush hlen).1⟩
    rw [ftruncate_natCast (by simp; omega)]
    dsimp only
    rw [List.take_append, ← hc]
  · simp only [dtor, hb, hfd, h0, if_false]
    rw [← hc, show f.offset = 0 by omega]
    simpa using hv.aligned.1

end DirectIOWritableFile

/-- The calls `write(s_1, n_1), ..., write(s_k, n_k)` in order, each with fuel for
`n_i mod 2^32 + 2` passes (enough whenever `buffer_size_ > 0`, `write_ne_none`,
and then the result does not depend on it, `write_add`): the values returned,
the writer and the file; `none` when a call does not return. -/
def writeRun (k : Kernel) :
    DirectIOWritableFile → Disk → List (List UInt8 × Int) →
      Option (List Int × DirectIOWritableFile × Disk)
  | f, d, [] => some ([], f, d)
  | f, d, (s, n) :: cs =>
    match f.write k (u32 n + 2) d s n with
    | some (r, f', d') => (writeRun k f' d' cs).map fun (rs, g) => (r :: rs, g)
    | none => none

/-- The input bytes of a sequence of calls: `s_1[0, n_1) ++ ... ++ s_k[0, n_k)`. -/
def inputBytes (calls : List (List UInt8 × Int)) : List UInt8 :=
  (calls.map fun c => c.1.take c.2.toNat).flatten

/-- The calls the writer is built for: `0 ≤ n < 2^32`, with `s` holding `n` bytes. -/
def CallsOK (calls : List (List UInt8 × Int)) : Prop :=
  ∀ c ∈ calls, 0 ≤ c.2 ∧ c.2 < 2 ^ 32 ∧ c.2 ≤ c.1.length

instance (calls : List (List UInt8 × Int)) : Decidable (CallsOK calls) :=
  inferInstanceAs (Decidable (∀ c ∈ calls, _))

theorem inputBytes_length {calls : List (List UInt8 × Int)} (h : CallsOK calls) :
    ((inputBytes calls).length : Int) = (calls.map Prod.snd).sum := by
  induction calls with
  | nil => rfl
  | cons c cs ih =>
    obtain ⟨h0, -, hs⟩ := h c (List.mem_cons_self _ _)
    simp only [inputBytes, List.map_cons, List.flatten_cons, List.length_append, List.length_take,
      List.sum_cons] at ih ⊢
    have := ih fun c' hc' => h c' (List.mem_cons_of_mem _ hc')
    omega

/-- **The run law**: from a writer holding `acc`, a sequence of calls returns
each `n_i` and leaves a writer holding `acc` followed by the calls' inputs. -/
theorem writeRun_full (hk : k.Full) :
    ∀ (calls : List (List UInt8 × Int)) {f : DirectIOWritableFile} {d : Disk} {acc : List UInt8},
      CallsOK calls → f.Valid d acc →
      ∃ f' d', writeRun k f d calls = some (calls.map Prod.snd, f', d') ∧
        f'.Valid d' (acc ++ inputBytes calls) ∧ f'.bufferSize = f.bufferSize
  | [], f, d, acc, _, hv => ⟨f, d, rfl, by simpa [inputBytes] using hv, rfl⟩
  | (s, n) :: cs, f, d, acc, hc, hv => by
    obtain ⟨h0, hlt, hs⟩ := hc _ (List.mem_cons_self _ _)
    obtain ⟨f₁, d₁, hw, hv₁, hbs₁⟩ := DirectIOWritableFile.write_full hv hk h0 hlt hs
      (show u32 n < u32 n + 2 by omega)
    obtain ⟨f₂, d₂, hr, hv₂, hbs₂⟩ :=
      writeRun_full hk cs (fun c hc' => hc c (List.mem_cons_of_mem _ hc')) hv₁
    refine ⟨f₂, d₂, by simp [writeRun, hw, hr], ?_, hbs₂.trans hbs₁⟩
    simpa [inputBytes, List.append_assoc] using hv₂

/-- **A direct-IO file holds exactly its inputs.** For a buffer of
`buffer_size_ > 0` bytes and an open file, and every `::write` whole: after any
sequence of calls `write(s_i, n_i)` with `0 ≤ n_i < 2^32`, each has returned
`n_i`; the file's bytes followed by `buffer_[0, offset_)` are the inputs in
order; `file_size_` is their total; `offset_ < buffer_size_`; every `::write`
was one whole page at a page boundary; and after the destructor the file holds
exactly the inputs. -/
theorem write_run_keeps_inputs {nPages : Int} {pageSize : Nat} {junk : Nat → UInt8} {fd : Int}
    {k : Kernel} (hfd : 0 ≤ fd) (hbs : 0 < u32 (nPages * pageSize)) (hk : k.Full)
    (calls : List (List UInt8 × Int)) (hc : CallsOK calls) :
    ∃ f d, writeRun k (DirectIOWritableFile.ctor nPages pageSize true junk fd) Disk.empty calls =
        some (calls.map Prod.snd, f, d) ∧
      f.content d = inputBytes calls ∧ f.fileSize = (calls.map Prod.snd).sum ∧
      f.offset < f.bufferSize ∧ Aligned f.bufferSize d ∧
      (f.dtor k d).data = inputBytes calls ∧
      ∀ p ∈ (f.dtor k d).issued, p.2 = f.bufferSize ∧ f.bufferSize ∣ p.1 := by
  obtain ⟨f, d, hr, hv, -⟩ :=
    writeRun_full hk calls hc (DirectIOWritableFile.ctor_valid hfd hbs :
      (DirectIOWritableFile.ctor nPages pageSize true junk fd).Valid Disk.empty [])
  rw [List.nil_append] at hv
  exact ⟨f, d, hr, hv.content_eq, hv.fileSize_eq.trans (inputBytes_length hc), hv.offset_lt,
    hv.aligned, DirectIOWritableFile.dtor_full hv hk⟩

/-- Two calls over a 4-byte page: the second completes the first page and fills
a second one, so both are flushed whole and the page ends empty. -/
theorem write_run_keeps_inputs_two_calls :
    (0 : Int) ≤ 3 ∧ 0 < u32 (1 * 4) ∧ Kernel.full.Full ∧
      CallsOK [([1, 2, 3], 3), ([4, 5, 6, 7, 8], 5)] ∧
      ∃ f d, writeRun Kernel.full (DirectIOWritableFile.ctor 1 4 true (fun _ => 0) 3) Disk.empty
          [([1, 2, 3], 3), ([4, 5, 6, 7, 8], 5)] =
          some ([([1, 2, 3], 3), ([4, 5, 6, 7, 8], 5)].map Prod.snd, f, d) ∧
        f.content d = inputBytes [([1, 2, 3], 3), ([4, 5, 6, 7, 8], 5)] ∧
        f.fileSize = ([([1, 2, 3], 3), ([4, 5, 6, 7, 8], 5)].map Prod.snd).sum ∧
        f.offset < f.bufferSize ∧ Aligned f.bufferSize d ∧
        (f.dtor Kernel.full d).data = inputBytes [([1, 2, 3], 3), ([4, 5, 6, 7, 8], 5)] ∧
        ∀ p ∈ (f.dtor Kernel.full d).issued, p.2 = f.bufferSize ∧ f.bufferSize ∣ p.1 :=
  ⟨by decide, by decide, Kernel.full_full, by decide,
    write_run_keeps_inputs (by decide) (by decide) Kernel.full_full _ (by decide)⟩

example : writeRun Kernel.full (DirectIOWritableFile.ctor 1 4 true (fun _ => 0) 3) Disk.empty
      [([1, 2, 3], 3), ([4, 5, 6, 7, 8], 5)] =
    some ([3, 5], ⟨3, 8, some [5, 6, 7, 8], 0, 4⟩, ⟨[1, 2, 3, 4, 5, 6, 7, 8], [(0, 4), (4, 4)]⟩) := by
  decide

end Rocksplicator
