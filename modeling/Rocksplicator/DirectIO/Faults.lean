import Rocksplicator.DirectIO.Content

/-!
# Where the writer's guarantees stop

* `write_terminates_iff_buffer`: the copy loop ends exactly when `buffer_size_`,
  the flag times the page size modulo `2^32`, is not zero (or nothing is to be
  copied); `write_spins_on_zero_pages` shows a constructed writer that spins.
* `write_wrapped_count`: a count of `2^32` or more is cut by `static_cast<uint32_t>`
  before the copy, but not in `file_size_` or in the value returned.
* `write_counts_iff`: **for every count, `file_size_` still counts the bytes the
  writer holds after `write` exactly when `0 ≤ n < 2^32`.**
* `write_short_flush`: a call that returns `-1` leaves the page full,
  `file_size_` as it was, and the call's first bytes in the content, so the
  content no longer matches `file_size_` (`short_flush_breaks_content`).
* `dtor_after_short_flush`: the destructor sends that full page again and cuts
  the file to `file_size_`: the file holds exactly the accepted bytes when the
  failed flush wrote nothing, and repeats what it did write otherwise.
-/

namespace Rocksplicator

namespace DirectIOWritableFile

variable {k : Kernel} {f f' : DirectIOWritableFile} {d d' : Disk} {s : List UInt8} {n : Int}

/-- **When the copy loop ends.** For a writer the constructor and calls reach:
with `buffer_size_ > 0`, `write` returns within `n mod 2^32 + 2` passes, and each
pass entered with room in the page copies at least one byte; with
`buffer_size_ = 0`, a `write` of `n ≢ 0 (mod 2^32)` bytes never returns while
its 0-byte `::write`s succeed. -/
theorem write_terminates_iff_buffer (hf : f.Sane) :
    (0 < f.bufferSize → ∀ fuel, u32 n + 2 ≤ fuel → f.write k fuel d s n ≠ none) ∧
      (∀ st : Loop, st.offset < f.bufferSize → 0 < st.remaining → st.remaining < 2 ^ 32 →
        (st.body k f.bufferSize).state.remaining < st.remaining) ∧
      (f.bufferSize = 0 → k.Full → 0 < u32 n → ∀ buf, f.buffer = some buf → 0 ≤ f.fd →
        ∀ fuel, f.write k fuel d s n = none) := by
  refine ⟨fun hpos fuel hfuel => write_ne_none hf hpos hfuel, fun st hoff h0 hrem => ?_,
    fun hz hk hn buf hb hfd fuel => write_spins hf hz hk hn hb hfd fuel⟩
  have := (body_state (k := k) hf.size_lt hoff.le hrem).1
  omega

/-- The first `write` on a constructed writer with one 4096-byte page. -/
theorem write_terminates_iff_buffer_one_page :
    (ctor 1 4096 true (fun _ => 0) 3).Sane ∧
      (0 < (ctor 1 4096 true (fun _ => 0) 3).bufferSize → ∀ fuel, u32 5 + 2 ≤ fuel →
        (ctor 1 4096 true (fun _ => 0) 3).write Kernel.full fuel Disk.empty [1, 2, 3, 4, 5] 5 ≠ none) ∧
      (∀ st : Loop, st.offset < (ctor 1 4096 true (fun _ => 0) 3).bufferSize → 0 < st.remaining →
        st.remaining < 2 ^ 32 →
        (st.body Kernel.full (ctor 1 4096 true (fun _ => 0) 3).bufferSize).state.remaining <
          st.remaining) ∧
      ((ctor 1 4096 true (fun _ => 0) 3).bufferSize = 0 → Kernel.full.Full → 0 < u32 5 →
        ∀ buf, (ctor 1 4096 true (fun _ => 0) 3).buffer = some buf →
          0 ≤ (ctor 1 4096 true (fun _ => 0) 3).fd → ∀ fuel,
          (ctor 1 4096 true (fun _ => 0) 3).write Kernel.full fuel Disk.empty [1, 2, 3, 4, 5] 5 =
            none) :=
  ⟨ctor_sane _ _ _ _ _, write_terminates_iff_buffer (ctor_sane _ _ _ _ _)⟩

/-- The flag `0` (or any flag whose product with the page size is a multiple of
`2^32`) builds a writer whose first pass copies nothing, and whose `write` of one
byte never returns. -/
theorem write_spins_on_zero_pages :
    (ctor (2 ^ 20) 4096 true (fun _ => 0) 3).bufferSize = 0 ∧
      (ctor 0 4096 true (fun _ => 0) 3).buffer = some [] ∧
      (Loop.body Kernel.full 0 ⟨[], 0, Disk.empty, [7], 1⟩).state.remaining = 1 ∧
      ∀ fuel, (ctor 0 4096 true (fun _ => 0) 3).write Kernel.full fuel Disk.empty [7] 1 = none :=
  ⟨by decide, by decide, by decide,
    write_spins (ctor_sane _ _ _ _ _) (by decide) Kernel.full_full (by decide)
      (show (ctor 0 4096 true (fun _ => 0) 3).buffer = some [] by decide) (by decide)⟩

/-- A count that `static_cast<uint32_t>` wraps to zero copies nothing, yet is
added to `file_size_` and returned. -/
theorem write_of_u32_eq_zero {buf : List UInt8} (hb : f.buffer = some buf) (hfd : 0 ≤ f.fd)
    (hn : u32 n = 0) (fuel : Nat) :
    f.write k (fuel + 1) d s n = some (n, { f with fileSize := f.fileSize + n }, d) := by
  obtain ⟨fd, size, buffer, off, bs⟩ := f
  simp only at hb hfd
  subst hb
  simp [write, copyLoop, hn, show ¬ fd < 0 by omega]

/-- **A write of `2^32` bytes appends none of them**: on a constructed writer it
returns `2^32`, and `file_size_` becomes `2^32` while the content stays empty. -/
theorem write_wrapped_count :
    (ctor 1 4096 true (fun _ => 0) 3).write Kernel.full 1 Disk.empty (List.replicate (2 ^ 32) 7)
        (2 ^ 32) =
      some (2 ^ 32, { ctor 1 4096 true (fun _ => 0) 3 with fileSize := 2 ^ 32 }, Disk.empty) ∧
      ({ ctor 1 4096 true (fun _ => 0) 3 with fileSize := 2 ^ 32 } : DirectIOWritableFile).content
        Disk.empty = [] := by
  refine ⟨?_, by simp [content, ctor, Disk.empty]⟩
  rw [write_of_u32_eq_zero (show (ctor 1 4096 true (fun _ => 0) 3).buffer =
    some ((List.range (u32 (1 * 4096))).map fun _ => 0) from rfl) (by decide) (by decide) 0]
  rfl

/-- **`file_size_` counts what `write` appends only for counts below `2^32`.**
For any count `n`, negative or past `2^32` included, a `write(s, n)` with every
`::write` whole returns `n`, appends the first `n mod 2^32` bytes of `s` and adds
`n` to `file_size_`; the writer still holds what `file_size_` says, and the
destructor will cut the file to it, exactly when `0 ≤ n < 2^32`. -/
theorem write_counts_iff {acc : List UInt8} (hv : f.Valid d acc) (hk : k.Full)
    (hs : u32 n ≤ s.length) {fuel : Nat} (hfuel : u32 n < fuel) :
    ∃ f' d', f.write k fuel d s n = some (n, f', d') ∧ f'.content d' = acc ++ s.take (u32 n) ∧
      f'.fileSize = acc.length + n ∧
      (f'.Valid d' (acc ++ s.take (u32 n)) ↔ 0 ≤ n ∧ n < 2 ^ 32) := by
  obtain ⟨b, hb, hlen⟩ := hv.buffer_eq
  have hi : Loop.Inv f.bufferSize (acc ++ s.take (u32 n)) ⟨b, f.offset, d, s, u32 n⟩ := by
    refine ⟨hv.offset_lt, hv.size_lt, hlen, hs, u32_lt n, ?_, hv.aligned⟩
    rw [← hv.content_eq, content, hb]; rfl
  obtain ⟨st', hl, hi', hsp⟩ := copyLoop_full hk _ _ hi hfuel
  have hc : content ({ f with fileSize := f.fileSize + n, buffer := some st'.buffer,
                              offset := st'.offset } : DirectIOWritableFile) st'.disk =
      acc ++ s.take (u32 n) := by
    simpa [content] using hsp
  have hsize : (acc ++ s.take (u32 n)).length = acc.length + u32 n := by simp; omega
  refine ⟨_, st'.disk, ?_, hc, by rw [hv.fileSize_eq], ⟨fun hv' => ?_, fun hn => ?_⟩⟩
  · simp only [write, hb, show ¬ f.fd < 0 by have := hv.fd_nonneg; omega, if_false, hl,
      Option.map_some']
  · -- `file_size_` grew by `n`, the content by `n mod 2^32`
    have h := hv'.fileSize_eq
    simp only [hsize, hv.fileSize_eq] at h
    have := u32_lt n
    omega
  · refine ⟨hv.fd_nonneg, hv.size_pos, hv.size_lt, hi'.offset_lt, by simpa using hi'.buffer_length,
      hc, ?_, hi'.aligned⟩
    dsimp only
    rw [hsize, hv.fileSize_eq, u32_toNat hn.1 hn.2]
    omega

/-- `write([], 2^32)` on a constructed writer: the writer no longer holds what
`file_size_` says. -/
theorem write_counts_iff_wrapped :
    (ctor 1 4096 true (fun _ => 0) 3).Valid Disk.empty [] ∧ Kernel.full.Full ∧
      u32 (2 ^ 32) ≤ ([] : List UInt8).length ∧ u32 (2 ^ 32) < 1 ∧
      ∃ f' d', (ctor 1 4096 true (fun _ => 0) 3).write Kernel.full 1 Disk.empty [] (2 ^ 32) =
          some (2 ^ 32, f', d') ∧ f'.content d' = [] ++ ([] : List UInt8).take (u32 (2 ^ 32)) ∧
        f'.fileSize = ([] : List UInt8).length + 2 ^ 32 ∧
        (f'.Valid d' ([] ++ ([] : List UInt8).take (u32 (2 ^ 32))) ↔
          0 ≤ (2 ^ 32 : Int) ∧ (2 ^ 32 : Int) < 2 ^ 32) :=
  have hv : (ctor 1 4096 true (fun _ => 0) 3).Valid Disk.empty [] := ctor_valid (by decide) (by decide)
  ⟨hv, Kernel.full_full, by decide, by decide,
    write_counts_iff hv Kernel.full_full (by decide) (by decide)⟩

end DirectIOWritableFile

variable {k : Kernel} {bs : Nat} {target : List UInt8}

/-- **The loop's failed exit**: from the invariant, a loop that returns `-1` has
consumed at least one byte more, and leaves a full page of which the file got a
prefix; the file before that page, the page and the rest of the input spell
`target`. -/
theorem copyLoop_failed :
    ∀ {fuel : Nat} {st st' : Loop}, st.Inv bs target → copyLoop k bs fuel st = some (.failed st') →
      st'.offset = bs ∧ st'.buffer.length = bs ∧ st'.remaining < st.remaining ∧
        st'.src = st.src.drop (st.remaining - st'.remaining) ∧
        ∃ flushed, (∃ j ≤ bs, st'.disk.data = flushed ++ st'.buffer.take j) ∧
          flushed ++ st'.buffer ++ st'.src.take st'.remaining = target
  | 0, _, _, _, h => by simp [copyLoop] at h
  | fuel + 1, st, st', hi, h => by
    simp only [copyLoop] at h
    split_ifs at h with h0
    swap
    · simp at h
    obtain ⟨hr, hdone, hfail⟩ := body_any (k := k) hi h0
    obtain ⟨hr', hsrc, -⟩ := body_state (k := k) hi.size_lt hi.offset_lt.le hi.remaining_lt
    split at h
    · rename_i st₁ he
      simp only [he, Exit.state_done] at hr hr' hsrc
      obtain ⟨h1, h2, h3, h4, h5⟩ := copyLoop_failed (hdone st₁ he) h
      refine ⟨h1, h2, by omega, ?_, h5⟩
      rw [h4, hsrc, List.drop_drop]
      congr 1
      omega
    · rename_i st₁ he
      cases h
      simp only [he, Exit.state_failed] at hr hr' hsrc
      obtain ⟨h1, h2, h3, h4⟩ := hfail _ he
      refine ⟨h1, h2, hr, by rw [hsrc]; congr 1; omega, st.disk.data, h3, h4⟩

namespace DirectIOWritableFile

variable {f f' : DirectIOWritableFile} {d d' : Disk} {s : List UInt8} {n : Int} {acc : List UInt8}

/-- **A short flush leaves the call's bytes behind.** From a writer holding
`acc`, a call `write(s, n)` that returns `-1` leaves `offset_ = buffer_size_`,
`file_size_` counting `acc` only, and a full page such that the file's bytes
before it and the page are `acc` followed by the first `m ≥ 1` bytes of `s`; the
file also got the first `j` bytes of that page. -/
theorem write_short_flush (hv : f.Valid d acc) (hn : 0 ≤ n) (hn' : n < 2 ^ 32)
    (hs : n ≤ s.length) {fuel : Nat} (h : f.write k fuel d s n = some (-1, f', d')) :
    f'.offset = f'.bufferSize ∧ f'.fileSize = acc.length ∧
      ∃ page m, f'.buffer = some page ∧ page.length = f'.bufferSize ∧ 0 < m ∧ m ≤ n.toNat ∧
        ∃ flushed, (∃ j ≤ f'.bufferSize, d'.data = flushed ++ page.take j) ∧
          flushed ++ page = acc ++ s.take m := by
  obtain ⟨b, hb, hlen⟩ := hv.buffer_eq
  have hu := u32_toNat hn hn'
  simp only [write, hb, show ¬ f.fd < 0 by have := hv.fd_nonneg; omega, if_false] at h
  obtain ⟨e, he, hres⟩ := Option.map_eq_some'.1 h
  cases e with
  | done st => simp only [Prod.mk.injEq] at hres; omega
  | failed st =>
    simp only [Prod.mk.injEq] at hres
    obtain ⟨-, rfl, rfl⟩ := hres
    obtain ⟨h1, h2, h3, h4, flushed, h5, h6⟩ := copyLoop_failed (hv.loop_inv hb hlen hn hn' hs) he
    simp only [hu] at h3 h4
    refine ⟨h1, hv.fileSize_eq, st.buffer, n.toNat - st.remaining, rfl, h2, by omega, by omega,
      flushed, h5, ?_⟩
    rw [h4] at h6
    have hsplit : s.take n.toNat = s.take (n.toNat - st.remaining) ++
        (s.drop (n.toNat - st.remaining)).take st.remaining := by
      rw [← List.take_add]; congr 1; omega
    rw [hsplit, ← List.append_assoc] at h6
    exact List.append_cancel_right h6

/-- The short flush of `short_flush_breaks_content`, from the writer holding
`[1, 2]`. -/
theorem write_short_flush_page_of_four :
    (⟨3, 2, some [1, 2, 0, 0], 2, 4⟩ : DirectIOWritableFile).Valid Disk.empty [1, 2] ∧
      (0 : Int) ≤ 3 ∧ (3 : Int) < 2 ^ 32 ∧ (3 : Int) ≤ ([3, 4, 5] : List UInt8).length ∧
      (⟨3, 2, some [1, 2, 0, 0], 2, 4⟩ : DirectIOWritableFile).write (fun _ _ => 0) 5 Disk.empty
          [3, 4, 5] 3 = some (-1, ⟨3, 2, some [1, 2, 3, 4], 4, 4⟩, ⟨[], [(0, 4)]⟩) ∧
      (⟨3, 2, some [1, 2, 3, 4], 4, 4⟩ : DirectIOWritableFile).offset =
          (⟨3, 2, some [1, 2, 3, 4], 4, 4⟩ : DirectIOWritableFile).bufferSize ∧
        (⟨3, 2, some [1, 2, 3, 4], 4, 4⟩ : DirectIOWritableFile).fileSize = ([1, 2] : List UInt8).length ∧
        ∃ page m, (⟨3, 2, some [1, 2, 3, 4], 4, 4⟩ : DirectIOWritableFile).buffer = some page ∧
          page.length = (⟨3, 2, some [1, 2, 3, 4], 4, 4⟩ : DirectIOWritableFile).bufferSize ∧
          0 < m ∧ m ≤ (3 : Int).toNat ∧
          ∃ flushed, (∃ j ≤ (⟨3, 2, some [1, 2, 3, 4], 4, 4⟩ : DirectIOWritableFile).bufferSize,
              (⟨[], [(0, 4)]⟩ : Disk).data = flushed ++ page.take j) ∧
            flushed ++ page = [1, 2] ++ ([3, 4, 5] : List UInt8).take m :=
  have hv : (⟨3, 2, some [1, 2, 0, 0], 2, 4⟩ : DirectIOWritableFile).Valid Disk.empty [1, 2] :=
    ⟨by decide, by decide, by decide, by decide, by decide, by decide, by decide, aligned_empty 4⟩
  have h : (⟨3, 2, some [1, 2, 0, 0], 2, 4⟩ : DirectIOWritableFile).write (fun _ _ => 0) 5
      Disk.empty [3, 4, 5] 3 = some (-1, ⟨3, 2, some [1, 2, 3, 4], 4, 4⟩, ⟨[], [(0, 4)]⟩) := by
    decide
  ⟨hv, by decide, by decide, by decide, h, write_short_flush hv (by decide) (by decide) (by decide) h⟩

/-- A page of 4 bytes holding `[1, 2]` takes the call `write([3, 4, 5], 3)`;
its flush writes nothing and the call returns `-1`. The writer then holds
`[1, 2, 3, 4]`, not the accepted `[1, 2]`, and `file_size_` still counts 2. -/
theorem short_flush_breaks_content :
    (ctor 1 4 true (fun _ => 0) 3).write Kernel.full 3 Disk.empty [1, 2] 2 =
        some (2, ⟨3, 2, some [1, 2, 0, 0], 2, 4⟩, Disk.empty) ∧
      (⟨3, 2, some [1, 2, 0, 0], 2, 4⟩ : DirectIOWritableFile).write (fun _ _ => 0) 5 Disk.empty
          [3, 4, 5] 3 = some (-1, ⟨3, 2, some [1, 2, 3, 4], 4, 4⟩, ⟨[], [(0, 4)]⟩) ∧
      (⟨3, 2, some [1, 2, 3, 4], 4, 4⟩ : DirectIOWritableFile).content ⟨[], [(0, 4)]⟩ ≠ [1, 2] ∧
      (⟨3, 2, some [1, 2, 3, 4], 4, 4⟩ : DirectIOWritableFile).fileSize ≠
        ((⟨3, 2, some [1, 2, 3, 4], 4, 4⟩ : DirectIOWritableFile).content ⟨[], [(0, 4)]⟩).length :=
  ⟨by decide, by decide, by decide, by decide⟩

/-- **The destructor after a short flush.** From a writer holding `acc`, a call
`write(s, n)` that returns `-1` leaves a full page that the destructor, its own
`::write` whole, sends again before cutting the file to `file_size_`: the file
then holds the first `acc.length` bytes of what the failed flush wrote followed
by the page. So it holds exactly `acc` when the failed flush wrote nothing, and
repeats the part of the page it did write otherwise. -/
theorem dtor_after_short_flush {k' : Kernel} (hv : f.Valid d acc) (hn : 0 ≤ n) (hn' : n < 2 ^ 32)
    (hs : n ≤ s.length) {fuel : Nat} (h : f.write k fuel d s n = some (-1, f', d'))
    (hk' : k'.Full) :
    ∃ flushed page j, f'.buffer = some page ∧ d'.data = flushed ++ page.take j ∧
      (f'.dtor k' d').data = (flushed ++ page.take j ++ page).take acc.length ∧
      (j = 0 → (f'.dtor k' d').data = acc) := by
  obtain ⟨b, hb, hlen⟩ := hv.buffer_eq
  have hu := u32_toNat hn hn'
  have hfd : ¬ f.fd < 0 := by have := hv.fd_nonneg; omega
  simp only [write, hb, hfd, if_false] at h
  obtain ⟨e, he, hres⟩ := Option.map_eq_some'.1 h
  cases e with
  | done st => simp only [Prod.mk.injEq] at hres; omega
  | failed st =>
    simp only [Prod.mk.injEq] at hres
    obtain ⟨-, rfl, rfl⟩ := hres
    have hi := hv.loop_inv hb hlen hn hn' hs
    obtain ⟨h1, h2, h3, h4, flushed, ⟨j, hj, h5⟩, h6⟩ := copyLoop_failed hi he
    -- the page and what the failed flush wrote before it hold more than `acc`
    have hlen' : acc.length ≤ (flushed ++ st.buffer).length := by
      have := congrArg List.length h6
      have hsrc := congrArg List.length h4
      simp only [List.length_append, List.length_take, List.length_drop] at this hsrc ⊢
      simp only [hu] at h3 hsrc this
      omega
    -- the destructor sends the full page whole, then cuts the file to `acc`'s length
    have hdata : (dtor k' { f with buffer := some st.buffer, offset := st.offset } st.disk).data =
        (flushed ++ st.buffer.take j ++ st.buffer).take acc.length := by
      have hoff : 0 < st.offset := h1 ▸ hv.size_pos
      simp only [dtor, hfd, hoff, if_false, if_true, sysWrite_full hk' st.disk h2, ne_eq,
        not_true_eq_false, hv.fileSize_eq]
      rw [ftruncate_natCast (by simp only [List.length_append, h5] at hlen' ⊢; omega), h5]
    refine ⟨flushed, st.buffer, j, rfl, h5, hdata, fun hj0 => ?_⟩
    rw [hdata, hj0, List.take_zero, List.append_nil,
      ← @List.take_append_of_le_length _ _ (st.src.take st.remaining) _ hlen', h6,
      List.take_left]

/-- The short flush of `short_flush_breaks_content` wrote nothing, so the
destructor still leaves exactly the accepted `[1, 2]`. -/
theorem dtor_after_short_flush_page_of_four :
    (⟨3, 2, some [1, 2, 0, 0], 2, 4⟩ : DirectIOWritableFile).Valid Disk.empty [1, 2] ∧
      (0 : Int) ≤ 3 ∧ (3 : Int) < 2 ^ 32 ∧ (3 : Int) ≤ ([3, 4, 5] : List UInt8).length ∧
      (⟨3, 2, some [1, 2, 0, 0], 2, 4⟩ : DirectIOWritableFile).write (fun _ _ => 0) 5 Disk.empty
          [3, 4, 5] 3 = some (-1, ⟨3, 2, some [1, 2, 3, 4], 4, 4⟩, ⟨[], [(0, 4)]⟩) ∧
      Kernel.full.Full ∧
      ∃ flushed page j, (⟨3, 2, some [1, 2, 3, 4], 4, 4⟩ : DirectIOWritableFile).buffer = some page ∧
        (⟨[], [(0, 4)]⟩ : Disk).data = flushed ++ page.take j ∧
        ((⟨3, 2, some [1, 2, 3, 4], 4, 4⟩ : DirectIOWritableFile).dtor Kernel.full ⟨[], [(0, 4)]⟩).data =
          (flushed ++ page.take j ++ page).take ([1, 2] : List UInt8).length ∧
        (j = 0 → ((⟨3, 2, some [1, 2, 3, 4], 4, 4⟩ : DirectIOWritableFile).dtor Kernel.full
          ⟨[], [(0, 4)]⟩).data = [1, 2]) :=
  have hv : (⟨3, 2, some [1, 2, 0, 0], 2, 4⟩ : DirectIOWritableFile).Valid Disk.empty [1, 2] :=
    ⟨by decide, by decide, by decide, by decide, by decide, by decide, by decide, aligned_empty 4⟩
  have h : (⟨3, 2, some [1, 2, 0, 0], 2, 4⟩ : DirectIOWritableFile).write (fun _ _ => 0) 5
      Disk.empty [3, 4, 5] 3 = some (-1, ⟨3, 2, some [1, 2, 3, 4], 4, 4⟩, ⟨[], [(0, 4)]⟩) := by
    decide
  ⟨hv, by decide, by decide, by decide, h, Kernel.full_full,
    dtor_after_short_flush hv (by decide) (by decide) (by decide) h Kernel.full_full⟩

end DirectIOWritableFile

end Rocksplicator
