import LiveMenu.Lib.Zoom
import LiveMenu.Model.Services

/-!
# Images in object storage

The storage backends, the upload service and the two routes of `upload.py`. An upload and a deletion
are programs on the process and the bucket; the requests to the storage service may fail.
-/

namespace LiveMenu

abbrev Bytes := List UInt8

/-- The objects of the bucket by key. -/
abbrev Bucket := List (String × Bytes)

namespace Bucket

def keys (b : Bucket) : List String := b.map Prod.fst

def delete (b : Bucket) (key : String) : Bucket := b.filter fun o => o.1 ≠ key

def put (b : Bucket) (key : String) (payload : Bytes) : Bucket := b.delete key ++ [(key, payload)]

end Bucket

structure StorageWorld where
  process : World
  bucket : Bucket

inductive StorageLabel where
  | service (l : Label)
  | put (key : String)
  | delete (key : String)
  deriving DecidableEq

inductive StorageExc where
  /-- An exception of the services, or an `HTTPException` of a route. -/
  | service (e : Exc)
  /-- `ValueError`. -/
  | value (detail : String)
  /-- `RuntimeError`: no bucket is configured. -/
  | runtime
  /-- An exception of the image library. -/
  | image
  /-- An exception of the storage client. -/
  | client
  deriving DecidableEq

abbrev StorageProg := Prog StorageWorld StorageLabel StorageExc

namespace StorageProg

variable {α : Type}

def processView : View StorageWorld World where
  get w := w.process
  set w p := { w with process := p }

/-- A call of a service. -/
def service (p : Async α) : StorageProg α := p.zoom processView .service .service

/-- `raise HTTPException(status, detail)`. -/
def http (status : ℕ) (detail : String) : StorageProg α :=
  Prog.raise (.service (.http status detail))

end StorageProg

/-! ### Backends -/

/-- `s.rstrip("/")`. -/
def rstripSlashes (s : String) : String :=
  String.ofList (s.toList.reverse.dropWhile (· = '/')).reverse

/-- The settings of the storage. -/
structure StorageSettings where
  gcs : Bool := false
  s3PublicUrl : String := "http://localhost:9000/livemenu"
  gcsBucket : Option String := none
  gcsPublicUrl : Option String := none
  imageMaxSizeMb : ℕ := 5

/-- `if value`: neither `None` nor the empty string. -/
def truthy (value : Option String) : Option String := value.filter (· ≠ "")

inductive StorageBackend where
  | s3 (publicUrl : String)
  | gcs (bucket : String) (publicUrl : Option String)

/-- `get_storage`. -/
def getStorage (S : StorageSettings) : StorageProg StorageBackend :=
  if S.gcs then
    match truthy S.gcsBucket with
    | none        => Prog.raise .runtime
    | some bucket => pure (.gcs bucket S.gcsPublicUrl)
  else pure (.s3 S.s3PublicUrl)

namespace StorageBackend

def publicPrefix : StorageBackend → String
  | .s3 publicUrl         => rstripSlashes publicUrl
  | .gcs bucket publicUrl =>
    match truthy publicUrl with
    | some url => rstripSlashes url
    | none     => "https://storage.googleapis.com/" ++ bucket

/-- The URL of the object, unless the request fails. -/
def upload (backend : StorageBackend) (payload : Bytes) (key : String) (fails : Bool) :
    StorageProg String := do
  Prog.attempt (.put key) fun w =>
    if fails then .error .client else .ok ((), { w with bucket := w.bucket.put key payload })
  return backend.publicPrefix ++ "/" ++ key

/-- S3 deletes a missing object without an error, Cloud Storage does not. -/
def delete (backend : StorageBackend) (key : String) (fails : Bool) : StorageProg Unit :=
  Prog.attempt (.delete key) fun w =>
    match fails, backend with
    | true, _         => .error .client
    | false, .s3 _    => .ok ((), { w with bucket := w.bucket.delete key })
    | false, .gcs _ _ =>
      if key ∈ w.bucket.keys then .ok ((), { w with bucket := w.bucket.delete key })
      else .error .client

end StorageBackend

/-- `get_public_prefix`. -/
def getPublicPrefix (S : StorageSettings) : StorageProg String := do
  let backend ← getStorage S
  return backend.publicPrefix

/-- `upload_file_to_s3`. -/
def uploadFileToS3 (S : StorageSettings) (payload : Bytes) (key : String) (fails : Bool) :
    StorageProg String := do
  let backend ← getStorage S
  backend.upload payload key fails

/-- `delete_file_from_s3`. -/
def deleteFileFromS3 (S : StorageSettings) (key : String) (fails : Bool) : StorageProg Unit := do
  let backend ← getStorage S
  backend.delete key fails

/-- `[0-9a-f]`. -/
def isHexDigit (c : Char) : Bool := ('0' ≤ c && c ≤ '9') || ('a' ≤ c && c ≤ 'f')

/-- `uuid.uuid4().hex[:12]`. -/
structure HexId where
  val : String
  hex : val.length = 12 ∧ val.toList.all isHexDigit = true
  deriving DecidableEq

/-- `s.rsplit(".", 1)[-1]`. -/
def afterLastDot (s : String) : String :=
  String.ofList (s.toList.reverse.takeWhile (· ≠ '.')).reverse

/-- `s.rsplit(".", 1)[0]`. -/
def beforeLastDot (s : String) : String :=
  if '.' ∈ s.toList then String.ofList (s.toList.reverse.dropWhile (· ≠ '.')).tail.reverse else s

/-- `generate_object_key`. -/
def generateObjectKey (pre filename : String) (unique : HexId) : String :=
  let ext := if '.' ∈ filename.toList then afterLastDot filename else "webp"
  pre ++ "/" ++ unique.val ++ "." ++ ext

/-! ### The upload service -/

structure ImageVariant where
  name : String
  size : ℕ × ℕ
  quality : ℕ

/-- `IMAGE_VARIANTS`. -/
def imageVariants : List ImageVariant :=
  [⟨"thumbnail", (150, 150), 80⟩, ⟨"medium", (400, 400), 85⟩, ⟨"large", (800, 800), 90⟩]

/-- `ALLOWED_CONTENT_TYPES`, a set. -/
def allowedContentTypes : List String := ["image/jpeg", "image/png", "image/webp"]

/-- What an upload meets: random identifiers, the image library (`_process_image_variant`), the
order in which the requests to the storage service are done and which of them fail, and the order
of a set. -/
structure UploadDraws where
  unique : String → HexId
  processImageVariant : Bytes → ℕ × ℕ → ℕ → Option Bytes
  done : Scan (String × Bytes)
  fails : String → Bool
  contentTypes : Scan String

/-- The key under which a variant is stored. -/
def variantKey (pre name filename : String) (unique : HexId) : String :=
  beforeLastDot (generateObjectKey (pre ++ "/" ++ name) filename unique) ++ ".webp"

/-- Await the tasks of the image library in turn. -/
def processVariants (draws : UploadDraws) (fileBytes : Bytes) :
    List ImageVariant → StorageProg (List (String × Bytes))
  | []      => pure []
  | v :: vs =>
    match draws.processImageVariant fileBytes v.size v.quality with
    | none         => Prog.raise .image
    | some payload => do
      let rest ← processVariants draws fileBytes vs
      return (v.name, payload) :: rest

/-- The tasks `_upload_one`, as they are done. One that fails does not stop the others, and the
first exception is what `gather` raises. -/
def uploadVariants (S : StorageSettings) (draws : UploadDraws) (pre filename : String) :
    List (String × Bytes) → StorageProg (List (String × Except StorageExc String))
  | [] => pure []
  | (name, payload) :: tasks => do
    let key := variantKey pre name filename (draws.unique name)
    let url ← (Except.ok <$> uploadFileToS3 S payload key (draws.fails name)).handle
      fun e => pure (.error e)
    let urls ← uploadVariants S draws pre filename tasks
    return (name, url) :: urls

/-- The URL of each variant, or the exception of the first task that failed. -/
def gatherUrls : List (String × Except StorageExc String) → StorageProg (List (String × String))
  | [] => pure []
  | (name, .ok url) :: rest => do
    let urls ← gatherUrls rest
    return (name, url) :: urls
  | (_, .error e) :: _ => Prog.raise e

/-- `process_and_upload_image`, for the variants of a table. -/
def processAndUploadVariants (variants : List ImageVariant) (S : StorageSettings)
    (draws : UploadDraws) (fileBytes : Bytes) (contentType pre originalFilename : String) :
    StorageProg (List (String × String)) :=
  if fileBytes.length > S.imageMaxSizeMb * 1024 * 1024 then
    Prog.raise (.value ("File size exceeds " ++ toString S.imageMaxSizeMb ++ "MB limit"))
  else if contentType ∉ allowedContentTypes then
    Prog.raise (.value ("Invalid file type. Allowed: " ++
      ", ".intercalate (draws.contentTypes.order allowedContentTypes)))
  else do
    let variantData ← processVariants draws fileBytes variants
    let results ← uploadVariants S draws pre originalFilename (draws.done.order variantData)
    let urls ← gatherUrls results
    return variantData.filterMap fun v => urls.find? fun u => u.1 = v.1

/-- `process_and_upload_image`. -/
def processAndUploadImage (S : StorageSettings) (draws : UploadDraws) (fileBytes : Bytes)
    (contentType pre originalFilename : String) : StorageProg (List (String × String)) :=
  processAndUploadVariants imageVariants S draws fileBytes contentType pre originalFilename

/-- `delete_image`. -/
def deleteImage (S : StorageSettings) (url : String) (fails : Bool) : StorageProg Unit := do
  let publicPrefix ← getPublicPrefix S
  let publicPrefix := rstripSlashes publicPrefix
  if startswith url publicPrefix then
    deleteFileFromS3 S (String.ofList (url.toList.drop (publicPrefix.length + 1))) fails
  else
    pure ()

/-! ### The routes -/

/-- The query parameter `prefix`. -/
inductive UploadFolder where
  | logos
  | dishes
  deriving DecidableEq

def UploadFolder.name : UploadFolder → String
  | .logos   => "logos"
  | .dishes  => "dishes"

/-- An uploaded file. -/
structure UploadFile where
  content : Bytes
  contentType : Option String
  filename : Option String

namespace UploadRouter

/-- `upload_image`. -/
def uploadImage (S : StorageSettings) (draws : UploadDraws) (userId : Uuid) (file : UploadFile)
    (folder : UploadFolder) : StorageProg (List (String × String)) := do
  let _ ← StorageProg.service (RestaurantService.getByOwner userId)
  (processAndUploadImage S draws file.content
    ((truthy file.contentType).getD "application/octet-stream") folder.name
    ((truthy file.filename).getD "image.jpg")).handle fun e =>
      match e with
      | .value detail => StorageProg.http 400 detail
      | e             => Prog.raise e

/-- `delete_uploaded_image`. -/
def deleteUploadedImage (S : StorageSettings) (userId : Uuid) (filename : String) (fails : Bool) :
    StorageProg Unit := do
  let _ ← StorageProg.service (RestaurantService.getByOwner userId)
  let publicPrefix ← getPublicPrefix S
  let url := rstripSlashes publicPrefix ++ "/" ++ filename
  (deleteImage S url fails).handle fun _ => StorageProg.http 500 "Failed to delete image"

end UploadRouter

end LiveMenu
