import Rocksplicator.DirectIO.Content

/-!
# What holds whatever `::write` replies

The kernel may take part of a page, nothing, or fail. Some of the writer's
bookkeeping holds all the same, over every run of calls.

* `write_any`: a call returns `n` and adds it to `file_size_`, or returns `-1`
  and leaves `file_size_` alone.
* `PagesOf`: every `::write` issued is one whole page (`copyLoop_pages`,
  `dtor_pages`), as `O_DIRECT` needs of its transfer size.
* `writer_any_kernel`: **for `buffer_size_ > 0` and any kernel, every call of
  any sequence returns, `file_size_` is the sum of what the calls returned other
  than `-1`, and every `::write` is exactly `buffer_size_` bytes.**
* `writer_aligned_all_or_nothing`: **when every `::write` writes its whole page
  or nothing, every `::write` of any run, retries and the destructor's
  included, is one page at a page boundary**: only a partial write misaligns.
-/

namespace Rocksplicator

/-- Every `::write` issued on the way from `d` to `d'` is of `count` bytes. -/
def PagesOf (count : Nat) (d d' : Disk) : Prop := ∀ p ∈ d'.issued, p ∈ d.issued ∨ p.2 = count

theorem PagesOf.refl (count : Nat) (d : Disk) : PagesOf count d d := fun _ hp => .inl hp

theorem PagesOf.trans {count : Nat} {d₁ d₂ d₃ : Disk} (h₁ : PagesOf count d₁ d₂)
    (h₂ : PagesOf count d₂ d₃) : PagesOf count d₁ d₃ := fun p hp =>
  (h₂ p hp).elim (fun hp => h₁ p hp) .inr

theorem sysWrite_pages (k : Kernel) (d : Disk) (buf : List UInt8) (count : Nat) :
    PagesOf count d (sysWrite k d buf count).2 := fun p hp => by
  simp only [sysWrite, List.mem_append, List.mem_singleton] at hp
  rcases hp with hp | rfl
  · exact .inl hp
  · exact .inr rfl

variable {k : Kernel} {bs : Nat}

theorem body_pages (k : Kernel) (bs : Nat) (st : Loop) :
    PagesOf bs st.disk (st.body k bs).state.disk := by
  unfold Loop.body
  dsimp only
  split_ifs
  · exact sysWrite_pages _ _ _ _
  · exact sysWrite_pages _ _ _ _
  · exact PagesOf.refl _ _

theorem copyLoop_pages {e : Exit} :
    ∀ {fuel st}, copyLoop k bs fuel st = some e → PagesOf bs st.disk e.state.disk
  | 0, _, h => by simp [copyLoop] at h
  | fuel + 1, st, h => by
    simp only [copyLoop] at h
    have hb := body_pages k bs st
    split_ifs at h
    · split at h
      · rename_i st' he
        rw [he] at hb
        exact hb.trans (copyLoop_pages h)
      · rename_i st' he
        cases h
        rw [he] at hb
        exact hb
    · cases h; exact PagesOf.refl _ _

namespace DirectIOWritableFile

variable {f f' : DirectIOWritableFile} {d d' : Disk} {s : List UInt8} {n r : Int}

/-- **A call, whatever the kernel replies**: it returns `n` and adds `n` to
`file_size_`, or returns `-1` and leaves `file_size_`; each `::write` it issues
is one page. -/
theorem write_any {fuel : Nat} (h : f.write k fuel d s n = some (r, f', d')) :
    (r = n ∧ f'.fileSize = f.fileSize + n ∨ r = -1 ∧ f'.fileSize = f.fileSize) ∧
      f'.bufferSize = f.bufferSize ∧ PagesOf f.bufferSize d d' := by
  unfold write at h
  split at h
  · cases h; exact ⟨.inr ⟨rfl, rfl⟩, rfl, PagesOf.refl _ _⟩
  · split_ifs at h
    · cases h; exact ⟨.inr ⟨rfl, rfl⟩, rfl, PagesOf.refl _ _⟩
    · obtain ⟨e, he, hres⟩ := Option.map_eq_some'.1 h
      have hp := copyLoop_pages he
      cases e <;> simp only [Prod.mk.injEq] at hres <;> obtain ⟨rfl, rfl, rfl⟩ := hres
      · exact ⟨.inl ⟨rfl, rfl⟩, rfl, hp⟩
      · exact ⟨.inr ⟨rfl, rfl⟩, rfl, hp⟩

theorem dtor_pages (k : Kernel) (f : DirectIOWritableFile) (d : Disk) :
    PagesOf f.bufferSize d (f.dtor k d) := by
  unfold dtor
  split
  · exact PagesOf.refl _ _
  · dsimp only
    split_ifs
    · exact PagesOf.refl _ _
    · exact sysWrite_pages _ _ _ _
    · intro p hp
      rw [ftruncate_issued] at hp
      exact sysWrite_pages _ _ _ _ p hp
    · exact PagesOf.refl _ _

theorem ctor_bufferSize (nPages : Int) (pageSize : Nat) (memalign : Bool) (junk : Nat → UInt8)
    (opened : Int) : (ctor nPages pageSize memalign junk opened).bufferSize = u32 (nPages * pageSize) ∧
      (ctor nPages pageSize memalign junk opened).fileSize = 0 := by
  unfold ctor
  split_ifs <;> exact ⟨rfl, rfl⟩

end DirectIOWritableFile

/-- **A run of calls, whatever the kernel replies**: from a sane writer with a
page of `buffer_size_ > 0` bytes, every call returns `n` or `-1`, `file_size_`
grows by exactly the values returned other than `-1`, `offset_ ≤ buffer_size_`
stays, and every `::write` issued is one page. -/
theorem writeRun_any (k : Kernel) :
    ∀ (calls : List (List UInt8 × Int)) {f : DirectIOWritableFile} {d : Disk}, f.Sane →
      0 < f.bufferSize → (∀ c ∈ calls, 0 ≤ c.2) →
      ∃ rs f' d', writeRun k f d calls = some (rs, f', d') ∧
        List.Forall₂ (fun r c => r = c.2 ∨ r = -1) rs calls ∧
        f'.fileSize = f.fileSize + (rs.filter (· ≠ -1)).sum ∧ f'.Sane ∧
        f'.bufferSize = f.bufferSize ∧ PagesOf f.bufferSize d d'
  | [], f, d, hf, _, _ => ⟨[], f, d, rfl, .nil, by simp, hf, rfl, PagesOf.refl _ _⟩
  | (s, n) :: cs, f, d, hf, hpos, hc => by
    obtain ⟨⟨r, f₁, d₁⟩, hw⟩ := Option.ne_none_iff_exists'.1
      (DirectIOWritableFile.write_ne_none (k := k) (d := d) (s := s) hf hpos (le_refl (u32 n + 2)))
    obtain ⟨hr, hbs₁, hp₁⟩ := DirectIOWritableFile.write_any hw
    obtain ⟨rs, f', d', hrun, hall, hsize, hf', hbs', hp'⟩ :=
      writeRun_any k cs (DirectIOWritableFile.write_sane hf hw) (hbs₁ ▸ hpos)
        fun c hc' => hc c (List.mem_cons_of_mem _ hc')
    have hn : 0 ≤ n := hc _ (List.mem_cons_self _ _)
    refine ⟨r :: rs, f', d', by simp [writeRun, hw, hrun], .cons (hr.imp And.left And.left) hall,
      ?_, hf', hbs'.trans hbs₁, hp₁.trans (hbs₁ ▸ hp')⟩
    rcases hr with ⟨rfl, hs₁⟩ | ⟨rfl, hs₁⟩
    · rw [List.filter_cons_of_pos (by simp; omega), List.sum_cons, hsize, hs₁, add_assoc]
    · rw [List.filter_cons_of_neg (by simp), hsize, hs₁]

/-- **The writer under any kernel**: for `buffer_size_ > 0`, whether or not
`posix_memalign` and `open` succeed and whatever each `::write` returns, every
call of any sequence returns `n` or `-1`, `file_size_` is the sum of the values
returned other than `-1`, `offset_ ≤ buffer_size_`, and every `::write` issued,
the destructor's included, is exactly `buffer_size_` bytes. -/
theorem writer_any_kernel (k : Kernel) {nPages : Int} {pageSize : Nat} (memalign : Bool)
    (junk : Nat → UInt8) (opened : Int) (hbs : 0 < u32 (nPages * pageSize))
    (calls : List (List UInt8 × Int)) (hc : ∀ c ∈ calls, 0 ≤ c.2) :
    ∃ rs f d, writeRun k (DirectIOWritableFile.ctor nPages pageSize memalign junk opened)
        Disk.empty calls = some (rs, f, d) ∧
      List.Forall₂ (fun r c => r = c.2 ∨ r = -1) rs calls ∧
      f.fileSize = (rs.filter (· ≠ -1)).sum ∧ f.offset ≤ f.bufferSize ∧
      ∀ p ∈ (f.dtor k d).issued, p.2 = f.bufferSize := by
  obtain ⟨hsize, hfile⟩ := DirectIOWritableFile.ctor_bufferSize nPages pageSize memalign junk opened
  obtain ⟨rs, f, d, hrun, hall, hfs, hf, hbs', hp⟩ :=
    writeRun_any k calls (DirectIOWritableFile.ctor_sane _ _ _ _ _) (hsize ▸ hbs) hc
  refine ⟨rs, f, d, hrun, hall, by rw [hfs, hfile, zero_add], hf.offset_le, fun p hp' => ?_⟩
  rcases DirectIOWritableFile.dtor_pages k f d p hp' with hpd | hpd
  · rcases hp p hpd with hpe | hpe
    · exact absurd hpe (List.not_mem_nil _)
    · rw [hbs', hpe]
  · exact hpd

/-- A kernel that writes nothing: the second call fills the 4-byte page, its
flush fails and it returns `-1`; `file_size_` counts the first call only. -/
theorem writer_any_kernel_failing_flush :
    0 < u32 (1 * 4) ∧ (∀ c ∈ [(([1, 2, 3] : List UInt8), (3 : Int)), ([4, 5], 2)], 0 ≤ c.2) ∧
      ∃ rs f d, writeRun (fun _ _ => 0) (DirectIOWritableFile.ctor 1 4 true (fun _ => 0) 3)
          Disk.empty [([1, 2, 3], 3), ([4, 5], 2)] = some (rs, f, d) ∧
        List.Forall₂ (fun r c => r = c.2 ∨ r = -1) rs
          ([([1, 2, 3], 3), ([4, 5], 2)] : List (List UInt8 × Int)) ∧
        f.fileSize = (rs.filter (· ≠ -1)).sum ∧ f.offset ≤ f.bufferSize ∧
        ∀ p ∈ (f.dtor (fun _ _ => 0) d).issued, p.2 = f.bufferSize :=
  ⟨by decide, by decide,
    @writer_any_kernel (fun _ _ => 0) 1 4 true (fun _ => 0) 3 (by decide)
      [([1, 2, 3], 3), ([4, 5], 2)] (by decide)⟩

/-- Every `::write` writes its whole page or nothing: an error, or `0`. -/
def Kernel.AllOrNothing (k : Kernel) : Prop := ∀ i c, k i c = c ∨ k i c ≤ 0

/-- A `::write` of a whole page that takes all of it or nothing keeps the file
aligned. -/
theorem Aligned.flush_or_none {d : Disk} (h : Aligned bs d) (hk : k.AllOrNothing) {buf : List UInt8}
    (hlen : buf.length = bs) : Aligned bs (sysWrite k d buf bs).2 := by
  rcases hk d.issued.length bs with hr | hr
  · rw [sysWrite_of_eq hlen hr]
    exact h.flush hlen
  · refine ⟨fun p hp => ?_, ?_⟩
    · simp only [sysWrite, List.mem_append, List.mem_singleton] at hp
      rcases hp with hp | rfl
      · exact h.1 p hp
      · exact ⟨rfl, h.2⟩
    · simpa [sysWrite, Int.toNat_of_nonpos hr] using h.2

/-- The copy loop's state while every `::write` takes its page whole or not at
all: the page is whole, `offset_ ≤ buffer_size_`, the input holds what is left
to copy, and the file is aligned. -/
structure Loop.Paged (bs : Nat) (st : Loop) : Prop where
  buffer_length : st.buffer.length = bs
  offset_le : st.offset ≤ bs
  remaining_le : st.remaining ≤ st.src.length
  aligned : Aligned bs st.disk

/-- A pass keeps the page whole and the file aligned. -/
theorem body_paged (hk : k.AllOrNothing) (hbs : bs < 2 ^ 32) {st : Loop} (hrem : st.remaining < 2 ^ 32)
    (h : st.Paged bs) : (st.body k bs).state.Paged bs := by
  have hlen : (memcpy st.buffer st.offset st.src (min (bs - st.offset) st.remaining)).length = bs := by
    rw [memcpy_length (by have := h.buffer_length; have := h.offset_le; omega)
      (by have := h.remaining_le; omega), h.buffer_length]
  have hal := h.aligned.flush_or_none hk hlen
  have hrem' := h.remaining_le
  have hoff := h.offset_le
  rw [body_eq hbs hoff hrem]
  dsimp only
  split_ifs <;> simp only [Exit.state_failed, Exit.state_done]
  · exact ⟨hlen, le_refl _, by dsimp only; rw [List.length_drop]; omega, hal⟩
  · exact ⟨hlen, Nat.zero_le _, by dsimp only; rw [List.length_drop]; omega, hal⟩
  · exact ⟨hlen, by dsimp only; omega, by dsimp only; rw [List.length_drop]; omega, h.aligned⟩

theorem copyLoop_paged (hk : k.AllOrNothing) (hbs : bs < 2 ^ 32) {e : Exit} :
    ∀ {fuel st}, st.Paged bs → st.remaining < 2 ^ 32 → copyLoop k bs fuel st = some e →
      e.state.Paged bs
  | 0, _, _, _, h => by simp [copyLoop] at h
  | fuel + 1, st, hp, hrem, h => by
    simp only [copyLoop] at h
    have hb := body_paged hk hbs hrem hp
    obtain ⟨hr, -, -⟩ := body_state (k := k) hbs hp.offset_le hrem
    split_ifs at h
    · split at h
      · rename_i st' he
        simp only [he, Exit.state_done] at hb hr
        exact copyLoop_paged hk hbs hb (by omega) h
      · rename_i st' he
        cases h
        rw [he] at hb
        exact hb
    · cases h; exact hp

namespace DirectIOWritableFile

/-- A writer whose page, when it has one, is whole, over an aligned file. -/
def Paged (f : DirectIOWritableFile) (d : Disk) : Prop :=
  (∀ b, f.buffer = some b → b.length = f.bufferSize) ∧ Aligned f.bufferSize d

variable {f f' : DirectIOWritableFile} {d d' : Disk} {s : List UInt8} {n r : Int}

/-- A call keeps the page whole and the file aligned, whatever it returns. -/
theorem write_paged (hk : k.AllOrNothing) (hf : f.Sane) (hp : f.Paged d) (hs : u32 n ≤ s.length)
    {fuel : Nat} (h : f.write k fuel d s n = some (r, f', d')) : f'.Paged d' := by
  unfold write at h
  split at h
  · cases h; exact hp
  · rename_i b hb
    split_ifs at h
    · cases h; exact hp
    · obtain ⟨e, he, hres⟩ := Option.map_eq_some'.1 h
      have hl := copyLoop_paged hk hf.size_lt ⟨hp.1 b hb, hf.offset_le, hs, hp.2⟩ (u32_lt n) he
      cases e <;> simp only [Prod.mk.injEq] at hres <;> obtain ⟨-, rfl, rfl⟩ := hres <;>
        exact ⟨fun b' hb' => by cases hb'; exact hl.buffer_length, hl.aligned⟩

/-- The destructor's `::write`, like every earlier one, is a whole page at a
page boundary. -/
theorem dtor_aligned (hk : k.AllOrNothing) (hp : f.Paged d) :
    ∀ p ∈ (f.dtor k d).issued, p.2 = f.bufferSize ∧ f.bufferSize ∣ p.1 := by
  unfold dtor
  split
  · exact hp.2.1
  · rename_i b hb
    have hal := hp.2.flush_or_none hk (hp.1 b hb)
    dsimp only
    split_ifs
    · exact hp.2.1
    · exact hal.1
    · intro p hpm
      rw [ftruncate_issued] at hpm
      exact hal.1 p hpm
    · exact hp.2.1

end DirectIOWritableFile

/-- A run of calls keeps the page whole and the file aligned. -/
theorem writeRun_paged (hk : k.AllOrNothing) :
    ∀ (calls : List (List UInt8 × Int)) {f f' : DirectIOWritableFile} {d d' : Disk} {rs : List Int},
      f.Sane → f.Paged d → (∀ c ∈ calls, 0 ≤ c.2 ∧ c.2 ≤ c.1.length) →
      writeRun k f d calls = some (rs, f', d') → f'.Paged d'
  | [], f, f', d, d', rs, _, hp, _, h => by cases h; exact hp
  | (s, n) :: cs, f, f', d, d', rs, hf, hp, hc, h => by
    simp only [writeRun] at h
    split at h
    · rename_i r f₁ d₁ hw
      obtain ⟨⟨rs', f₂, d₂⟩, hrun, heq⟩ := Option.map_eq_some'.1 h
      cases heq
      obtain ⟨h0, hs⟩ : 0 ≤ n ∧ n ≤ s.length := hc _ (List.mem_cons_self _ _)
      have hu : u32 n ≤ s.length := by unfold u32; omega
      exact writeRun_paged hk cs (DirectIOWritableFile.write_sane hf hw)
        (DirectIOWritableFile.write_paged hk hf hp hu hw) (fun c hc' => hc c (List.mem_cons_of_mem _ hc'))
        hrun
    · cases h

/-- **`O_DIRECT` alignment survives `::write`s that fail without writing.** For
`buffer_size_ > 0`, when every `::write` writes its whole page or nothing,
whether `posix_memalign` and `open` succeed or not: any sequence of calls
`write(s_i, n_i)` with `0 ≤ n_i ≤ |s_i|` returns, and every `::write` it and the
destructor issue, retries of failed flushes included, is one whole page at a
page boundary. Only a partial write misaligns the file. -/
theorem writer_aligned_all_or_nothing {k : Kernel} (hk : k.AllOrNothing) {nPages : Int}
    {pageSize : Nat} (memalign : Bool) (junk : Nat → UInt8) (opened : Int)
    (hbs : 0 < u32 (nPages * pageSize)) (calls : List (List UInt8 × Int))
    (hc : ∀ c ∈ calls, 0 ≤ c.2 ∧ c.2 ≤ c.1.length) :
    ∃ rs f d, writeRun k (DirectIOWritableFile.ctor nPages pageSize memalign junk opened)
        Disk.empty calls = some (rs, f, d) ∧
      ∀ p ∈ (f.dtor k d).issued, p.2 = f.bufferSize ∧ f.bufferSize ∣ p.1 := by
  have hsane := DirectIOWritableFile.ctor_sane nPages pageSize memalign junk opened
  obtain ⟨hsize, -⟩ := DirectIOWritableFile.ctor_bufferSize nPages pageSize memalign junk opened
  obtain ⟨rs, f, d, hrun, -⟩ := writeRun_any k calls hsane (hsize ▸ hbs) fun c hc' => (hc c hc').1
  -- the constructor's page is whole, and the file empty
  have hp : (DirectIOWritableFile.ctor nPages pageSize memalign junk opened).Paged Disk.empty := by
    refine ⟨fun b hb => ?_, aligned_empty _⟩
    unfold DirectIOWritableFile.ctor at hb ⊢
    split_ifs at hb ⊢
    cases hb
    simp
  exact ⟨rs, f, d, hrun, DirectIOWritableFile.dtor_aligned hk (writeRun_paged hk calls hsane hp hc hrun)⟩

/-- The first `::write` fails and writes nothing: the second call flushes the
same page again at offset `0`, and every `::write` stays aligned. -/
theorem writer_aligned_failed_flush_retried :
    Kernel.AllOrNothing (fun i c => if i = 0 then -1 else (c : Int)) ∧ 0 < u32 (1 * 4) ∧
      (∀ c ∈ [(([1, 2, 3, 4, 5] : List UInt8), (5 : Int)), ([6], 1)], 0 ≤ c.2 ∧ c.2 ≤ c.1.length) ∧
      ∃ rs f d, writeRun (fun i c => if i = 0 then -1 else (c : Int))
          (DirectIOWritableFile.ctor 1 4 true (fun _ => 0) 3) Disk.empty
          [([1, 2, 3, 4, 5], 5), ([6], 1)] = some (rs, f, d) ∧
        ∀ p ∈ (f.dtor (fun i c => if i = 0 then -1 else (c : Int)) d).issued,
          p.2 = f.bufferSize ∧ f.bufferSize ∣ p.1 :=
  have hk : Kernel.AllOrNothing (fun i c => if i = 0 then -1 else (c : Int)) := fun i c => by
    by_cases h : i = 0 <;> simp [h]
  ⟨hk, by decide, by decide,
    @writer_aligned_all_or_nothing _ hk 1 4 true (fun _ => 0) 3 (by decide) _ (by decide)⟩

end Rocksplicator
