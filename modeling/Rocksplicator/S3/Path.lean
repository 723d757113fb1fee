import Rocksplicator.S3.Strings

/-!
# `S3Util::parseFullS3Path`

An `s3://` or `s3n://` path is cut at its first `/` after the scheme into bucket
and object path; any other string gives `("", "")`. The position of that `/` is
kept in an `int`, so a missing `/` (`npos`) becomes `-1`.

* `parseFullS3Path_split`: `scheme ++ b ++ "/" ++ p` gives `(b, p)` for a
  `/`-free bucket shorter than `2^31 - 1`.
* `parseFullS3Path_no_slash`: with no `/` after the scheme, the object path
  repeats the whole bucket (`parse_bucket_only`).
* `parseFullS3Path_long_bucket`: a bucket of `2^31 - 1` characters or more
  makes `substr` throw. At exactly `2^31 - 1`, `index + 1` overflows `int`, which
  C++ leaves undefined: the model assumes the two's-complement wrap there.
* `parseFullS3Path_returns`: **on every string shorter than `2^31` characters
  `parseFullS3Path` returns**: the long bucket is the only way to make it throw.
-/

namespace Rocksplicator

namespace S3Util

/-- The `if (start)` block of `parseFullS3Path`, on the path after its scheme.
`index + 1` is `int` arithmetic: it overflows only at `index = 2^31 - 1`, where
C++ leaves the result undefined and `toInt32` takes the two's-complement wrap. -/
def splitBucket (formatted : List Char) : Except String (List Char × List Char) := do
  let index := toInt32 (find formatted ['/'])
  let bucket ← substr formatted 0 (toSize index)
  let objectPath ← substr formatted (toSize (toInt32 (index + 1))) npos
  pure (bucket, objectPath)

/-- `S3Util::parseFullS3Path`: `(bucket, object_path)`; `substr` may throw. -/
def parseFullS3Path (s3Path : List Char) : Except String (List Char × List Char) :=
  if find s3Path "s3n://".toList = 0 then substr s3Path 6 npos >>= splitBucket
  else if find s3Path "s3://".toList = 0 then substr s3Path 5 npos >>= splitBucket
  else pure ([], [])

/-- The two schemes `parseFullS3Path` accepts. -/
def schemes : List (List Char) := ["s3://".toList, "s3n://".toList]

/-- A path with a scheme is cut after it. -/
theorem parseFullS3Path_scheme {scheme : List Char} (hs : scheme ∈ schemes) (r : List Char)
    (hr : r.length < 2 ^ 63) : parseFullS3Path (scheme ++ r) = splitBucket r := by
  have hlen : (r.take npos) = r := List.take_of_length_le (by unfold npos; omega)
  simp only [schemes, List.mem_cons, List.mem_singleton, List.not_mem_nil, or_false] at hs
  rcases hs with rfl | rfl
  · have h1 : ¬ find ("s3://".toList ++ r) "s3n://".toList = 0 := by
      rw [find_eq_zero_iff]; simp [List.prefix_append_right_inj]
    have h2 : find ("s3://".toList ++ r) "s3://".toList = 0 :=
      (find_eq_zero_iff _ _).2 (List.prefix_append _ _)
    rw [parseFullS3Path, if_neg h1, if_pos h2, substr_of_le (by simp),
      show List.drop 5 ("s3://".toList ++ r) = r from rfl, hlen, ok_bind]
  · have h1 : find ("s3n://".toList ++ r) "s3n://".toList = 0 :=
      (find_eq_zero_iff _ _).2 (List.prefix_append _ _)
    rw [parseFullS3Path, if_pos h1, substr_of_le (by simp),
      show List.drop 6 ("s3n://".toList ++ r) = r from rfl, hlen, ok_bind]

/-- Any other string gives `("", "")`. -/
theorem parseFullS3Path_other {s : List Char} (h1 : ¬ "s3n://".toList <+: s)
    (h2 : ¬ "s3://".toList <+: s) : parseFullS3Path s = .ok ([], []) := by
  rw [parseFullS3Path, if_neg (by rwa [find_eq_zero_iff]), if_neg (by rwa [find_eq_zero_iff])]
  rfl

/-- A `/`-free bucket shorter than `2^31 - 1`, a `/`, and any object path. -/
theorem splitBucket_slash {b p : List Char} (hb : '/' ∉ b) (hlt : b.length < 2 ^ 31 - 1)
    (hp : p.length < 2 ^ 63) : splitBucket (b ++ '/' :: p) = .ok (b, p) := by
  have h1 : toInt32 (b.length : Int) = b.length := toInt32_of_lt (by omega) (by omega)
  have h2 : toInt32 ((b.length : Int) + 1) = b.length + 1 := toInt32_of_lt (by omega) (by omega)
  have h3 : toSize (b.length : Int) = b.length := by
    rw [toSize_of_nonneg (by omega) (by omega)]; simp
  have h4 : toSize ((b.length : Int) + 1) = b.length + 1 := by
    rw [toSize_of_nonneg (by omega) (by omega)]; omega
  have hd : (b ++ '/' :: p).drop (b.length + 1) = p := by
    rw [show b ++ '/' :: p = (b ++ ['/']) ++ p by simp, List.drop_left' (by simp)]
  simp only [splitBucket, find_slash_append p hb, h1, h3, h2, h4]
  rw [substr_of_le (by simp), substr_of_le (by simp), hd,
    List.take_of_length_le (show p.length ≤ npos by unfold npos; omega), List.drop_zero,
    List.take_left]
  rfl

/-- With no `/` after the scheme, `find` gives `npos`, the `int` index is `-1`,
and both `substr`s return the whole rest. -/
theorem splitBucket_free {r : List Char} (hr : '/' ∉ r) (hlen : r.length < 2 ^ 63) :
    splitBucket r = .ok (r, r) := by
  have hi : toInt32 (npos : Int) = -1 := by decide
  have hs : toSize (-1) = npos := by decide
  have h0 : toInt32 (-1 + 1) = 0 := by decide
  have ht : r.take npos = r := List.take_of_length_le (by unfold npos; omega)
  simp only [splitBucket, find_slash_of_free hr, hi, hs, h0]
  rw [substr_of_le (Nat.zero_le _), show toSize 0 = 0 from rfl, substr_of_le (Nat.zero_le _)]
  simp only [List.drop_zero, ht, ok_bind]
  rfl

/-- A `/`-free bucket of `2^31 - 1` to `2^32 - 2` characters: the `int` index
(or the index plus one) wraps negative, and the object path's `substr` starts
past the end. -/
theorem splitBucket_long {b p : List Char} (hb : '/' ∉ b) (h1 : 2 ^ 31 - 1 ≤ b.length)
    (h2 : b.length < 2 ^ 32 - 1) (hlen : (b ++ '/' :: p).length < 2 ^ 63) :
    splitBucket (b ++ '/' :: p) = .error "std::out_of_range" := by
  have hpos : (b ++ '/' :: p).length < toSize (toInt32 (toInt32 b.length + 1)) := by
    simp only [List.length_append, List.length_cons] at hlen ⊢
    unfold toSize toInt32
    split_ifs <;> omega
  simp only [splitBucket, find_slash_append p hb]
  rw [substr_of_le (Nat.zero_le _), ok_bind, substr_of_lt hpos]
  rfl

/-- **The intended cut**: for either scheme, a `/`-free bucket shorter than
`2^31 - 1` characters, a `/` and any object path give `(bucket, object path)`. -/
theorem parseFullS3Path_split {scheme b p : List Char} (hs : scheme ∈ schemes) (hb : '/' ∉ b)
    (hlt : b.length < 2 ^ 31 - 1) (hp : p.length < 2 ^ 62) :
    parseFullS3Path (scheme ++ (b ++ '/' :: p)) = .ok (b, p) := by
  rw [parseFullS3Path_scheme hs _ (by simp; omega), splitBucket_slash hb hlt (by omega)]

/-- `s3n://bucket/a/b` parses to `("bucket", "a/b")`. -/
theorem parseFullS3Path_split_bucket :
    "s3n://".toList ∈ schemes ∧ '/' ∉ "bucket".toList ∧ "bucket".toList.length < 2 ^ 31 - 1 ∧
      "a/b".toList.length < 2 ^ 62 ∧
      parseFullS3Path ("s3n://".toList ++ ("bucket".toList ++ '/' :: "a/b".toList)) =
        .ok ("bucket".toList, "a/b".toList) :=
  ⟨by decide, by decide, by decide, by decide,
    parseFullS3Path_split (by decide) (by decide) (by decide) (by decide)⟩

/-- **With no `/` after the scheme** the object path is the whole bucket, not
empty. -/
theorem parseFullS3Path_no_slash {scheme r : List Char} (hs : scheme ∈ schemes) (hr : '/' ∉ r)
    (hlen : r.length < 2 ^ 63) : parseFullS3Path (scheme ++ r) = .ok (r, r) := by
  rw [parseFullS3Path_scheme hs _ hlen, splitBucket_free hr hlen]

/-- `s3://bucket` parses to `("bucket", "bucket")`. -/
theorem parse_bucket_only :
    parseFullS3Path "s3://bucket".toList = .ok ("bucket".toList, "bucket".toList) :=
  @parseFullS3Path_no_slash "s3://".toList "bucket".toList (by decide) (by decide) (by decide)

/-- **A bucket of `2^31 - 1` characters or more** makes `parseFullS3Path` throw
`std::out_of_range`. From `2^31` characters on only the conversion of `find`'s
result to `int` wraps; at exactly `2^31 - 1` the result rests on the
two's-complement wrap of the overflowing `index + 1` that `splitBucket` assumes. -/
theorem parseFullS3Path_long_bucket {scheme b p : List Char} (hs : scheme ∈ schemes)
    (hb : '/' ∉ b) (h1 : 2 ^ 31 - 1 ≤ b.length) (h2 : b.length < 2 ^ 32 - 1)
    (hlen : (b ++ '/' :: p).length < 2 ^ 63) :
    parseFullS3Path (scheme ++ (b ++ '/' :: p)) = .error "std::out_of_range" := by
  rw [parseFullS3Path_scheme hs _ hlen, splitBucket_long hb h1 h2 hlen]

/-- A bucket of `2^31` characters with a one-character object path, where no
`int` arithmetic overflows. -/
theorem parseFullS3Path_long_bucket_2_31 :
    "s3://".toList ∈ schemes ∧ '/' ∉ List.replicate (2 ^ 31) 'b' ∧
      2 ^ 31 - 1 ≤ (List.replicate (2 ^ 31) 'b').length ∧
      (List.replicate (2 ^ 31) 'b').length < 2 ^ 32 - 1 ∧
      (List.replicate (2 ^ 31) 'b' ++ ['/', 'k']).length < 2 ^ 63 ∧
      parseFullS3Path ("s3://".toList ++ (List.replicate (2 ^ 31) 'b' ++ ['/', 'k'])) =
        .error "std::out_of_range" := by
  have hs : "s3://".toList ∈ schemes := by decide
  have hb : '/' ∉ List.replicate (2 ^ 31) 'b' := by
    rw [List.mem_replicate]; exact fun h => absurd h.2 (by decide)
  have h1 : 2 ^ 31 - 1 ≤ (List.replicate (2 ^ 31) 'b').length := by
    rw [List.length_replicate]; decide
  have h2 : (List.replicate (2 ^ 31) 'b').length < 2 ^ 32 - 1 := by
    rw [List.length_replicate]; decide
  have h3 : (List.replicate (2 ^ 31) 'b' ++ ['/', 'k']).length < 2 ^ 63 := by
    rw [List.length_append, List.length_replicate]; decide
  exact ⟨hs, hb, h1, h2, h3, parseFullS3Path_long_bucket hs hb h1 h2 h3⟩

/-- A string with a `/` splits at its first one. -/
theorem exists_first_slash : ∀ {r : List Char}, '/' ∈ r → ∃ b p, r = b ++ '/' :: p ∧ '/' ∉ b
  | [], h => absurd h (List.not_mem_nil _)
  | c :: t, h => by
    by_cases hc : c = '/'
    · exact ⟨[], t, by rw [hc]; rfl, List.not_mem_nil _⟩
    · obtain ⟨b, p, rfl, hb⟩ := exists_first_slash ((List.mem_cons.1 h).resolve_left (Ne.symm hc))
      exact ⟨c :: b, p, rfl, by simp [hb, Ne.symm hc]⟩

/-- On a rest shorter than `2^31 - 1` characters the `if (start)` block
returns. -/
theorem splitBucket_returns {r : List Char} (hr : r.length < 2 ^ 31 - 1) :
    ∃ bucket objectPath, splitBucket r = .ok (bucket, objectPath) := by
  by_cases h : '/' ∈ r
  · obtain ⟨b, p, rfl, hb⟩ := exists_first_slash h
    simp only [List.length_append, List.length_cons] at hr
    exact ⟨b, p, splitBucket_slash hb (by omega) (by omega)⟩
  · exact ⟨r, r, splitBucket_free h (by omega)⟩

/-- **`parseFullS3Path` throws only on huge paths**: on every string shorter than
`2^31` characters it returns a bucket and an object path. -/
theorem parseFullS3Path_returns {s : List Char} (hs : s.length < 2 ^ 31) :
    ∃ bucket objectPath, parseFullS3Path s = .ok (bucket, objectPath) := by
  by_cases h : ∃ scheme ∈ schemes, scheme <+: s
  · obtain ⟨scheme, hsch, r, rfl⟩ := h
    have h5 : 5 ≤ scheme.length := by
      simp only [schemes, List.mem_cons, List.mem_singleton, List.not_mem_nil, or_false] at hsch
      rcases hsch with rfl | rfl <;> decide
    rw [List.length_append] at hs
    rw [parseFullS3Path_scheme hsch r (by omega)]
    exact splitBucket_returns (by omega)
  · push_neg at h
    exact ⟨[], [], parseFullS3Path_other (h _ (by decide)) (h _ (by decide))⟩

/-- `s3://b/k` parses. -/
theorem parseFullS3Path_returns_b_k :
    "s3://b/k".toList.length < 2 ^ 31 ∧
      ∃ bucket objectPath, parseFullS3Path "s3://b/k".toList = .ok (bucket, objectPath) :=
  ⟨by decide, parseFullS3Path_returns (by decide)⟩

end S3Util

end Rocksplicator
