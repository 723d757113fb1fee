import Rocksplicator.DirectIO.Writer

/-!
# The copy loop: one pass in closed form, termination, divergence

While `offset_ ≤ buffer_size_ < 2^32`, none of the loop's `uint32_t` operations
wraps, and a pass copies `min (buffer_size_ - offset_) remaining` bytes
(`body_eq`).

* `copyLoop_ne_none`: for `buffer_size_ > 0` the loop ends within
  `remaining + 2` passes, whatever the kernel replies.
* `copyLoop_spins`: for `buffer_size_ = 0` a pass copies nothing, its 0-byte
  `::write` matches `buffer_size_`, and the loop never ends.
* `write_sane`: the constructor and every `write` keep `offset_ ≤ buffer_size_`.
-/

namespace Rocksplicator

theorem u32_sub {a b : Nat} (h : b ≤ a) (ha : a < 2 ^ 32) : u32 ((a : Int) - b) = a - b := by
  unfold u32; omega

theorem u32_add {a b : Nat} (h : a + b < 2 ^ 32) : u32 ((a : Int) + b) = a + b := by
  unfold u32; omega

theorem u32_toNat {n : Int} (hn : 0 ≤ n) (hn' : n < 2 ^ 32) : u32 n = n.toNat := by
  unfold u32; omega

/-- The loop state an exit carries. -/
def Exit.state : Exit → Loop
  | .done st => st
  | .failed st => st

@[simp] theorem Exit.state_done (st : Loop) : (Exit.done st).state = st := rfl
@[simp] theorem Exit.state_failed (st : Loop) : (Exit.failed st).state = st := rfl

variable {k : Kernel} {bs : Nat} {st st' : Loop}

/-- **A pass in closed form**, while `offset_ ≤ buffer_size_ < 2^32`. -/
theorem body_eq (hbs : bs < 2 ^ 32) (hoff : st.offset ≤ bs) (hrem : st.remaining < 2 ^ 32) :
    st.body k bs =
      let bytes := min (bs - st.offset) st.remaining
      let buf := memcpy st.buffer st.offset st.src bytes
      if st.offset + bytes = bs then
        if (sysWrite k st.disk buf bs).1 ≠ bs then
          .failed ⟨buf, bs, (sysWrite k st.disk buf bs).2, st.src.drop bytes, st.remaining - bytes⟩
        else .done ⟨buf, 0, (sysWrite k st.disk buf bs).2, st.src.drop bytes, st.remaining - bytes⟩
      else .done ⟨buf, st.offset + bytes, st.disk, st.src.drop bytes, st.remaining - bytes⟩ := by
  have h1 : u32 ((bs : Int) - st.offset) = bs - st.offset := u32_sub hoff hbs
  have h2 : u32 ((st.offset : Int) + (min (bs - st.offset) st.remaining : Nat)) =
      st.offset + min (bs - st.offset) st.remaining := u32_add (by omega)
  have h3 : u32 ((st.remaining : Int) - (min (bs - st.offset) st.remaining : Nat)) =
      st.remaining - min (bs - st.offset) st.remaining := u32_sub (by omega) hrem
  simp only [Loop.body, h1, h2, h3]
  split_ifs with hb <;> simp only [hb]

section Sane

variable (hbs : bs < 2 ^ 32) (hoff : st.offset ≤ bs) (hrem : st.remaining < 2 ^ 32)
include hbs hoff hrem

/-- A pass consumes `min (buffer_size_ - offset_) remaining` bytes of the input
and leaves `offset_ ≤ buffer_size_`. -/
theorem body_state :
    (st.body k bs).state.remaining = st.remaining - min (bs - st.offset) st.remaining ∧
      (st.body k bs).state.src = st.src.drop (min (bs - st.offset) st.remaining) ∧
      (st.body k bs).state.offset ≤ bs := by
  rw [body_eq hbs hoff hrem]
  dsimp only
  split_ifs <;> refine ⟨rfl, rfl, ?_⟩ <;> simp only [Exit.state_failed, Exit.state_done] <;> omega

/-- A pass that goes on leaves room in the page; one that fails leaves it full. -/
theorem body_offset (hpos : 0 < bs) :
    (st.body k bs = .done st' → st'.offset < bs) ∧ (st.body k bs = .failed st' → st'.offset = bs) := by
  rw [body_eq hbs hoff hrem]
  dsimp only
  split_ifs with h
  · exact ⟨by simp, by rintro ⟨⟩; rfl⟩
  · exact ⟨by rintro ⟨⟩; exact hpos, by simp⟩
  · exact ⟨by rintro ⟨⟩; dsimp only; omega, by simp⟩

end Sane

/-- `copyLoop` gives the same exit with more fuel. -/
theorem copyLoop_add {e : Exit} (m : Nat) :
    ∀ {fuel st}, copyLoop k bs fuel st = some e → copyLoop k bs (fuel + m) st = some e
  | 0, _, h => by simp [copyLoop] at h
  | fuel + 1, st, h => by
    rw [Nat.add_right_comm]
    simp only [copyLoop] at h ⊢
    split_ifs at h ⊢
    split at h
    · exact copyLoop_add m h
    · exact h
    · exact h

/-- **The loop ends for `buffer_size_ > 0`**: within `remaining + 1` passes, one
more when the page is full on entry (left by a failed flush). -/
theorem copyLoop_ne_none (hpos : 0 < bs) (hbs : bs < 2 ^ 32) :
    ∀ fuel st, st.offset ≤ bs → st.remaining < 2 ^ 32 →
      st.remaining + (if st.offset = bs then 1 else 0) < fuel → copyLoop k bs fuel st ≠ none
  | 0, _, _, _, h => by omega
  | fuel + 1, st, hoff, hrem, hfuel => by
    simp only [copyLoop]
    split_ifs with h0
    · obtain ⟨hr, -, hle⟩ := body_state (k := k) hbs hoff hrem
      cases he : st.body k bs with
      | failed st' => simp
      | done st' =>
        simp only [he, Exit.state_done] at hr hle
        have hlt : st'.offset < bs := (body_offset hbs hoff hrem hpos).1 he
        refine copyLoop_ne_none hpos hbs fuel st' hle (by omega) ?_
        split_ifs at hfuel ⊢ <;> omega
    · simp

/-- **For `buffer_size_ = 0` the loop never ends**: each pass copies nothing,
its 0-byte `::write` returns `0 = buffer_size_`, and `remaining` stays. -/
theorem copyLoop_spins (hk : k.Full) :
    ∀ fuel st, st.offset = 0 → 0 < st.remaining → st.remaining < 2 ^ 32 → copyLoop k 0 fuel st = none
  | 0, _, _, _, _ => rfl
  | fuel + 1, st, hoff, hpos, hrem => by
    have hb : st.body k 0 = .done ⟨st.buffer, 0, (sysWrite k st.disk st.buffer 0).2, st.src,
        st.remaining⟩ := by
      rw [body_eq (by omega) (by omega) hrem]
      simp [hoff, memcpy, sysWrite, hk _ 0]
    simp only [copyLoop, hpos, if_true, hb]
    exact copyLoop_spins hk fuel _ rfl hpos hrem

namespace DirectIOWritableFile

/-- What every reachable writer satisfies: `offset_ ≤ buffer_size_ < 2^32`. -/
structure Sane (f : DirectIOWritableFile) : Prop where
  offset_le : f.offset ≤ f.bufferSize
  size_lt : f.bufferSize < 2 ^ 32

theorem ctor_sane (nPages : Int) (pageSize : Nat) (memalign : Bool) (junk : Nat → UInt8)
    (opened : Int) : (ctor nPages pageSize memalign junk opened).Sane := by
  unfold ctor
  split_ifs <;> exact ⟨Nat.zero_le _, u32_lt _⟩

/-- The exit of the loop keeps `offset_ ≤ buffer_size_`. -/
theorem copyLoop_offset_le (hbs : bs < 2 ^ 32) {e : Exit} :
    ∀ {fuel st}, st.offset ≤ bs → st.remaining < 2 ^ 32 → copyLoop k bs fuel st = some e →
      e.state.offset ≤ bs
  | 0, _, _, _, h => by simp [copyLoop] at h
  | fuel + 1, st, hoff, hrem, h => by
    simp only [copyLoop] at h
    obtain ⟨hr, -, hle⟩ := body_state (k := k) hbs hoff hrem
    split_ifs at h
    · split at h
      · rename_i st' he
        simp only [he, Exit.state_done] at hr hle
        exact copyLoop_offset_le hbs hle (by omega) h
      · rename_i st' he
        rw [he] at hle
        cases h; exact hle
    · cases h; exact hoff

variable {f f' : DirectIOWritableFile} {d d' : Disk} {s : List UInt8} {n r : Int}

/-- **`write` keeps the writer sane**, whatever the kernel replies. -/
theorem write_sane (hf : f.Sane) {fuel : Nat} (h : f.write k fuel d s n = some (r, f', d')) :
    f'.Sane := by
  unfold write at h
  split at h
  · cases h; exact hf
  · split_ifs at h
    · cases h; exact hf
    · obtain ⟨e, he, hres⟩ := Option.map_eq_some'.1 h
      have := copyLoop_offset_le hf.size_lt hf.offset_le (u32_lt n) he
      cases e <;> simp only [Prod.mk.injEq] at hres <;> obtain ⟨-, rfl, -⟩ := hres <;>
        exact ⟨this, hf.size_lt⟩

/-- `write` gives the same result with more fuel. -/
theorem write_add {res : Int × DirectIOWritableFile × Disk} {fuel : Nat} (m : Nat)
    (h : f.write k fuel d s n = some res) : f.write k (fuel + m) d s n = some res := by
  unfold write at h ⊢
  split at h
  · simpa using h
  · split_ifs at h ⊢
    · exact h
    · obtain ⟨e, he, rfl⟩ := Option.map_eq_some'.1 h
      rw [copyLoop_add m he]; rfl

/-- With `buffer_size_ > 0`, `write` returns within `n mod 2^32 + 2` passes. -/
theorem write_ne_none (hf : f.Sane) (hpos : 0 < f.bufferSize) {fuel : Nat}
    (hfuel : u32 n + 2 ≤ fuel) : f.write k fuel d s n ≠ none := by
  unfold write
  split
  · simp
  · split_ifs
    · simp
    · rw [Ne, Option.map_eq_none']
      exact copyLoop_ne_none hpos hf.size_lt fuel _ hf.offset_le (u32_lt n)
        (by dsimp only; split_ifs <;> omega)

/-- With `buffer_size_ = 0`, a `write` of `n ≢ 0 (mod 2^32)` bytes never returns
while the 0-byte `::write`s succeed. -/
theorem write_spins (hf : f.Sane) (hz : f.bufferSize = 0) (hk : k.Full) (hn : 0 < u32 n)
    {buf : List UInt8} (hbuf : f.buffer = some buf) (hfd : 0 ≤ f.fd) (fuel : Nat) :
    f.write k fuel d s n = none := by
  have hoff : f.offset = 0 := by have := hf.offset_le; omega
  simp only [write, hbuf, show ¬ f.fd < 0 by omega, if_false, hz]
  rw [copyLoop_spins hk fuel _ hoff hn (u32_lt n)]
  rfl

end DirectIOWritableFile

end Rocksplicator
