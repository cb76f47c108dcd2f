import LiveMenu.Lib.Interleaving
import LiveMenu.Model.Requests
import LiveMenu.Model.Storage

/-!
# Whose images a deletion removes

An object key carries no owner and nothing records who stored an object. The deletion asks only that
its user has a restaurant, and removes the object that the path names.
-/

namespace LiveMenu

inductive StorageCall where
  | upload (draws : UploadDraws) (userId : Uuid) (file : UploadFile) (folder : UploadFolder)
  | delete (userId : Uuid) (filename : String) (fails : Bool)

inductive StorageResponse where
  | uploaded (urls : List (String × String))
  | deleted

namespace StorageCall

def user : StorageCall → Uuid
  | .upload _ userId _ _ => userId
  | .delete userId _ _   => userId

def code (S : StorageSettings) : StorageCall → StorageProg StorageResponse
  | .upload draws userId file folder =>
    .uploaded <$> UploadRouter.uploadImage S draws userId file folder
  | .delete userId filename fails =>
    (fun _ => .deleted) <$> UploadRouter.deleteUploadedImage S userId filename fails

/-- What the steps of a call do to the bucket. -/
def allows (call : StorageCall) (l : StorageLabel) (w w' : StorageWorld) : Prop :=
  match l with
  | .service _   => w'.bucket = w.bucket
  | .put key     => w'.bucket = w.bucket ∨ ∃ payload, w'.bucket = w.bucket.put key payload
  | .delete key  => (∃ userId fails, call = .delete userId key fails) ∧
    (w'.bucket = w.bucket ∨ w'.bucket = w.bucket.delete key)

def monitor (call : StorageCall) : Monitor StorageWorld StorageLabel Unit where
  next _ _ _ _ := ()
  allows _ := call.allows

/-- Every step of the program is one of the call. -/
abbrev Follows {α : Type} (call : StorageCall) (p : StorageProg α) : Prop :=
  call.monitor.Accepts (fun _ _ => True) p ()

end StorageCall

/-! ### The code -/

/-- `url[len(prefix) + 1:]` of a URL that was put together from the prefix. -/
lemma drop_publicUrl (pre key : String) :
    String.ofList ((pre ++ "/" ++ key).toList.drop (pre.length + 1)) = key := by
  have hlength : (pre ++ "/").toList.length = pre.length + 1 := by
    rw [String.toList_append, List.length_append, String.length_toList]
    rfl
  rw [String.toList_append, ← hlength, List.drop_left, String.ofList_toList]

lemma startswith_append (pre s : String) : startswith (pre ++ s) pre = true := by
  simp only [startswith, String.toList_append]
  exact List.isPrefixOf_iff_prefix.mpr (List.prefix_append _ _)

lemma getStorage_cases (S : StorageSettings) :
    getStorage S = Prog.raise .runtime ∨ ∃ backend, getStorage S = pure backend := by
  rw [getStorage]
  split_ifs
  · cases truthy S.gcsBucket with
    | none => exact .inl rfl
    | some bucket => exact .inr ⟨_, rfl⟩
  · exact .inr ⟨_, rfl⟩

/-- Stripping the prefix gives back the path: the route deletes the object that the path names. -/
lemma deleteImage_publicUrl {S : StorageSettings} {backend : StorageBackend}
    (h : getStorage S = pure backend) (key : String) (fails : Bool) :
    deleteImage S (rstripSlashes backend.publicPrefix ++ "/" ++ key) fails
      = backend.delete key fails := by
  have hstart : startswith (rstripSlashes backend.publicPrefix ++ "/" ++ key)
      (rstripSlashes backend.publicPrefix) = true := by
    rw [String.append_assoc]
    exact startswith_append _ _
  have hprefix : getPublicPrefix S = pure backend.publicPrefix := by
    rw [getPublicPrefix, h]
    rfl
  simp only [deleteImage, deleteFileFromS3, hprefix, h, Prog.pure_bind, hstart, if_true,
    drop_publicUrl]

namespace StorageCall

variable {call : StorageCall} {α β : Type}

lemma follows_bind {p : StorageProg α} {k : α → StorageProg β} (hp : call.Follows p)
    (hk : ∀ a, call.Follows (k a)) : call.Follows (p >>= k) := by
  refine Monitor.accepts_bind (hp.mono fun _ r _ => ?_)
  cases r with
  | ok a => exact hk a
  | error e => trivial

lemma follows_handle {p : StorageProg α} {h : StorageExc → StorageProg α} (hp : call.Follows p)
    (hh : ∀ e, call.Follows (h e)) : call.Follows (p.handle h) := by
  refine Monitor.accepts_handle (hp.mono fun _ r _ => ?_)
  cases r with
  | ok a => trivial
  | error e => exact hh e

/-- The services do not see the bucket. -/
lemma follows_service (p : Async α) : call.Follows (StorageProg.service p) := by
  induction p with
  | done r => trivial
  | step l eff next ih => exact fun w => ⟨rfl, ih w.process⟩

lemma follows_getStorage (S : StorageSettings) : call.Follows (getStorage S) := by
  rcases getStorage_cases S with h | ⟨backend, h⟩ <;> rw [h] <;> trivial

lemma follows_uploadFileToS3 (S : StorageSettings) (payload : Bytes) (key : String)
    (fails : Bool) : call.Follows (uploadFileToS3 S payload key fails) := by
  refine follows_bind (follows_getStorage S) fun backend => follows_bind ?_ fun _ => trivial
  refine Monitor.accepts_attempt ?_ fun w e _ => ⟨.inl rfl, trivial⟩
  intro w _ w' h
  split_ifs at h
  cases h
  exact ⟨.inr ⟨payload, rfl⟩, trivial⟩

lemma follows_processVariants (draws : UploadDraws) (fileBytes : Bytes) (vs : List ImageVariant) :
    call.Follows (processVariants draws fileBytes vs) := by
  induction vs with
  | nil => trivial
  | cons v vs ih =>
    rw [processVariants]
    cases draws.processImageVariant fileBytes v.size v.quality with
    | none => trivial
    | some payload => exact follows_bind ih fun _ => trivial

lemma follows_uploadVariants (S : StorageSettings) (draws : UploadDraws) (pre filename : String)
    (tasks : List (String × Bytes)) : call.Follows (uploadVariants S draws pre filename tasks) := by
  induction tasks with
  | nil => trivial
  | cons task tasks ih =>
    refine follows_bind (follows_handle ?_ fun e => trivial) fun url => ?_
    · exact follows_bind (follows_uploadFileToS3 _ _ _ _) fun _ => trivial
    · exact follows_bind ih fun _ => trivial

lemma follows_gatherUrls (results : List (String × Except StorageExc String)) :
    call.Follows (gatherUrls results) := by
  induction results with
  | nil => trivial
  | cons r results ih =>
    obtain ⟨name, r⟩ := r
    cases r with
    | ok url => exact follows_bind ih fun _ => trivial
    | error e => trivial

lemma follows_uploadImage (S : StorageSettings) (draws : UploadDraws) (userId : Uuid)
    (file : UploadFile) (folder : UploadFolder) :
    call.Follows (UploadRouter.uploadImage S draws userId file folder) := by
  refine follows_bind (follows_service _) fun _ => follows_handle ?_ fun e => by cases e <;> trivial
  rw [processAndUploadImage, processAndUploadVariants]
  split_ifs
  · trivial
  · apply follows_bind (follows_processVariants _ _ _)
    intro variantData
    apply follows_bind (follows_uploadVariants _ _ _ _ _)
    intro results
    exact follows_bind (follows_gatherUrls _) fun _ => trivial
  · trivial

/-- The only object a deletion removes is the one its path names. -/
lemma follows_deleteUploadedImage (S : StorageSettings) (userId : Uuid) (filename : String)
    (fails : Bool) : (StorageCall.delete userId filename fails).Follows
      (UploadRouter.deleteUploadedImage S userId filename fails) := by
  apply follows_bind (follows_service _)
  intro _
  rcases getStorage_cases S with h | ⟨backend, h⟩
  · simp only [getPublicPrefix, h]
    trivial
  · simp only [getPublicPrefix, h, Prog.pure_bind]
    refine follows_handle ?_ fun _ => trivial
    rw [deleteImage_publicUrl h]
    refine Monitor.accepts_attempt ?_ fun w e _ => ⟨⟨⟨userId, fails, rfl⟩, .inl rfl⟩, trivial⟩
    intro w _ w' hw
    refine ⟨⟨⟨userId, fails, rfl⟩, .inr ?_⟩, trivial⟩
    split at hw
    · cases hw
    · cases hw
      rfl
    · split_ifs at hw
      cases hw
      rfl

lemma follows_code (S : StorageSettings) (call : StorageCall) : call.Follows (call.code S) := by
  cases call with
  | upload draws userId file folder =>
    exact follows_bind (follows_uploadImage _ _ _ _ _) fun _ => trivial
  | delete userId filename fails =>
    exact follows_bind (follows_deleteUploadedImage _ _ _ _) fun _ => trivial

end StorageCall

/-! ### Runs -/

/-- An object that a step of a user removed from the bucket. -/
structure Removal where
  key : String
  storedBy : Uuid
  removedBy : Uuid
  deriving DecidableEq

/-- The keys under which steps of a user put new objects, and the removals of such objects. -/
structure ImageLog where
  stored : List (String × Uuid)
  removals : List Removal

namespace ImageLog

def stepped (log : ImageLog) (user : Uuid) (b b' : Bucket) : ImageLog where
  stored := log.stored ++ (b'.keys.filter (· ∉ b.keys)).map fun key => (key, user)
  removals := log.removals ++ (log.stored.filter fun o => o.1 ∈ b.keys ∧ o.1 ∉ b'.keys).map fun o =>
    ⟨o.1, o.2, user⟩

end ImageLog

/-- Uploads and deletions of any users, interleaved, while anything else happens in the process. -/
def imageSystem (S : StorageSettings) :
    System StorageCall Unit StorageWorld StorageLabel StorageExc StorageResponse ImageLog where
  program := StorageCall.code S
  init _ := ()
  monitor := StorageCall.monitor
  onStart cfg _ _ := cfg.ghost
  onStep cfg _ th _ w' := cfg.ghost.stepped th.call.user cfg.state.bucket w'.bucket
  env w w' := w'.bucket = w.bucket

instance (S : StorageSettings) : DecidableRel (imageSystem S).env := fun w w' =>
  inferInstanceAs (Decidable (w'.bucket = w.bucket))

abbrev ImageConfig : Type :=
  Config StorageCall Unit StorageWorld StorageLabel StorageExc StorageResponse ImageLog

def imageStart (w : StorageWorld) : ImageConfig := ⟨w, fun _ => none, ⟨[], []⟩⟩

/-- A deletion names no object that another user stored. -/
def DeletesOwn :
    System.Guard StorageCall Unit StorageWorld StorageLabel StorageExc StorageResponse ImageLog :=
  fun cfg _ th l => (∃ key, l = .delete key) → ∀ userId filename fails,
    th.call = .delete userId filename fails → ∀ u, (filename, u) ∈ cfg.ghost.stored → u = userId

/-- Every stored object is there or was removed by its user, and every removal was by that user. -/
structure ImagesOwned (cfg : ImageConfig) : Prop where
  there : ∀ o ∈ cfg.ghost.stored, o.1 ∈ cfg.state.bucket.keys ∨ ⟨o.1, o.2, o.2⟩ ∈ cfg.ghost.removals
  own : ∀ r ∈ cfg.ghost.removals, r.removedBy = r.storedBy

namespace Bucket

variable {b : Bucket} {key k : String}

@[simp] lemma mem_keys_delete : k ∈ (b.delete key).keys ↔ k ∈ b.keys ∧ k ≠ key := by
  simp only [keys, delete, List.mem_map, List.mem_filter, decide_eq_true_eq]
  constructor
  · rintro ⟨o, ⟨ho, hne⟩, rfl⟩
    exact ⟨⟨o, ho, rfl⟩, hne⟩
  · rintro ⟨⟨o, ho, rfl⟩, hne⟩
    exact ⟨o, ⟨ho, hne⟩, rfl⟩

lemma delete_of_not_mem (h : key ∉ b.keys) :
    b.delete key = b := by
  apply List.filter_eq_self.mpr
  intro o ho
  rw [decide_eq_true_eq]
  rintro rfl
  exact h (List.mem_map_of_mem ho)

lemma mem_keys_put_of_mem (payload : Bytes) (h : k ∈ b.keys) : k ∈ (b.put key payload).keys := by
  by_cases hk : k = key
  · simp [keys, put, hk]
  · have : k ∈ (b.delete key).keys := mem_keys_delete.mpr ⟨h, hk⟩
    simp only [keys, put, List.map_append, List.mem_append] at this ⊢
    exact .inl this

end Bucket

/-- A step that loses an object is the deletion of it. -/
lemma StorageCall.delete_of_lost {call : StorageCall} {l : StorageLabel} {w w' : StorageWorld}
    {key : String} (h : call.allows l w w') (hkey : key ∈ w.bucket.keys)
    (hlost : key ∉ w'.bucket.keys) : l = .delete key ∧ ∃ u fails, call = .delete u key fails := by
  cases l with
  | service l =>
    have hb : w'.bucket = w.bucket := h
    exact absurd (hb ▸ hkey) hlost
  | put k =>
    rcases h with hb | ⟨payload, hb⟩
    · exact absurd (hb ▸ hkey) hlost
    · exact absurd (hb ▸ Bucket.mem_keys_put_of_mem payload hkey) hlost
  | delete k =>
    obtain ⟨hcall, hb | hb⟩ := h
    · exact absurd (hb ▸ hkey) hlost
    · rw [hb, Bucket.mem_keys_delete, not_and_not_right] at hlost
      have hk := hlost hkey
      subst hk
      exact ⟨rfl, hcall⟩

namespace ImagesOwned

variable {S : StorageSettings} {cfg : ImageConfig}

lemma stepped (h : ImagesOwned cfg) {i : ℕ}
    {th : Thread StorageCall Unit StorageWorld StorageLabel StorageExc StorageResponse}
    {l : StorageLabel} {w' : StorageWorld} {code : StorageProg StorageResponse}
    (hmay : DeletesOwn cfg i th l) (hallow : th.call.monitor.allows th.phase l cfg.state w') :
    ImagesOwned ((imageSystem S).stepped cfg i th l w' code) := by
  have hown : ∀ o ∈ cfg.ghost.stored, o.1 ∈ cfg.state.bucket.keys → o.1 ∉ w'.bucket.keys →
      th.call.user = o.2 := by
    rintro ⟨key, u⟩ ho hkey hlost
    obtain ⟨rfl, v, fails, hcall⟩ := StorageCall.delete_of_lost hallow hkey hlost
    rw [hcall]
    exact (hmay ⟨key, rfl⟩ v key fails hcall u ho).symm
  constructor
  · intro o ho
    rcases List.mem_append.mp ho with ho | ho
    · rcases h.there o ho with hkey | hremoved
      · by_cases hlost : o.1 ∈ w'.bucket.keys
        · exact .inl hlost
        · refine .inr (List.mem_append_right _ (List.mem_map.mpr ⟨o, ?_, ?_⟩))
          · exact List.mem_filter.mpr ⟨ho, decide_eq_true ⟨hkey, hlost⟩⟩
          · rw [hown o ho hkey hlost]
      · exact .inr (List.mem_append_left _ hremoved)
    · obtain ⟨key, hkey, rfl⟩ := List.mem_map.mp ho
      exact .inl (List.mem_filter.mp hkey).1
  · intro r hr
    rcases List.mem_append.mp hr with hr | hr
    · exact h.own r hr
    · obtain ⟨o, ho, rfl⟩ := List.mem_map.mp hr
      obtain ⟨ho, hlost⟩ := List.mem_filter.mp ho
      exact hown o ho (of_decide_eq_true hlost).1 (of_decide_eq_true hlost).2

end ImagesOwned

/-- In every run where no deletion names an object that another user stored, an object stays until
its user removes it. -/
theorem images_removed_by_owner (S : StorageSettings) (w : StorageWorld) (cfg : ImageConfig)
    (h : (imageSystem S).Reach DeletesOwn (imageStart w) cfg) : ImagesOwned cfg := by
  refine h.monitored (Q := fun _ _ _ => True) (StorageCall.follows_code S) ?_ ?_ ?_ ?_ ?_
  · rintro i th ⟨⟩
  · exact ⟨fun o ho => absurd ho List.not_mem_nil, fun r hr => absurd hr List.not_mem_nil⟩
  · exact fun cfg i c hI _ => ⟨hI.there, hI.own⟩
  · exact fun cfg i th l w' code hI _ hmay hallow => hI.stepped hmay hallow
  · intro cfg w hI hw
    have hw : w.bucket = cfg.state.bucket := hw
    exact ⟨fun o ho => hw ▸ hI.there o ho, hI.own⟩

/-! ### Ana's image -/

/-- Ana and Luis have restaurants. -/
def twoOwners : StorageWorld :=
  ⟨runEvents Platform.plain World.sample [
    .request (.admin 1 (.restaurantCreate 5 { name := ⟨"Bodega", by decide⟩ } 10)),
    .request (.admin 2 (.restaurantCreate 5 { name := ⟨"Venta", by decide⟩ } 11))], []⟩

def anasDraws : UploadDraws where
  unique _ := ⟨"0123456789ab", by decide⟩
  processImageVariant fileBytes _ _ := some fileBytes
  done := Scan.stored _
  fails _ := false
  contentTypes := Scan.stored _

/-- Ana uploads the image of a dish, then `user` deletes its large variant. -/
def uploadThenDelete (user : Uuid) : List (Choice StorageCall StorageWorld) :=
  .start 0 (.upload anasDraws 1 ⟨[1, 2, 3], some "image/png", some "sopa.png"⟩ .dishes) ::
    List.replicate 4 (.run 0) ++
  .start 1 (.delete user "dishes/large/0123456789ab.webp" false) :: List.replicate 2 (.run 1)

/-- The call has returned without an exception. -/
def storageReturned (cfg : ImageConfig) (i : ℕ) : Bool :=
  match cfg.threads i with
  | some ⟨_, _, .done (.ok _)⟩ => true
  | _                          => false

/-- A deletion by the call names only objects of its user. -/
def namesOwn (cfg : ImageConfig) (i : ℕ) : Bool :=
  match cfg.threads i with
  | some ⟨.delete userId filename _, _, _⟩ =>
    cfg.ghost.stored.all fun o => o.1 = filename → o.2 = userId
  | _ => true

lemma deletesOwn_of_namesOwn {cfg : ImageConfig} {i : ℕ}
    {th : Thread StorageCall Unit StorageWorld StorageLabel StorageExc StorageResponse}
    {l : StorageLabel} (hi : cfg.threads i = some th) (hok : namesOwn cfg i = true) :
    DeletesOwn cfg i th l := by
  obtain ⟨call, φ, code⟩ := th
  intro _ userId filename fails hcall u hu
  cases hcall
  simp only [namesOwn, hi, List.all_eq_true, decide_eq_true_eq] at hok
  exact hok (filename, u) hu rfl

/-- Ana deletes her own image. -/
theorem images_removed_by_owner_ana :
    ∃ cfg : ImageConfig, storageReturned cfg 1 = true ∧ ImagesOwned cfg ∧
      cfg.state.bucket.keys
        = ["dishes/thumbnail/0123456789ab.webp", "dishes/medium/0123456789ab.webp"] := by
  have hrun : ((imageSystem {}).follow namesOwn (uploadThenDelete 1) (imageStart twoOwners)).any
      (fun cfg => storageReturned cfg 1 && cfg.state.bucket.keys
        = ["dishes/thumbnail/0123456789ab.webp", "dishes/medium/0123456789ab.webp"]) = true := by
    decide +kernel
  obtain ⟨cfg, hreach, -, hp⟩ := System.exists_reach_of_follow_below (n := 2) (fun _ _ => rfl)
    (fun i c h => by simp [uploadThenDelete] at h; omega)
    (fun _ _ _ _ _ hi hok => deletesOwn_of_namesOwn hi hok) hrun
  simp only [Bool.and_eq_true, decide_eq_true_eq] at hp
  exact ⟨cfg, hp.1, images_removed_by_owner {} twoOwners cfg hreach, hp.2⟩

/-- Luis deletes the image of Ana: both requests succeed, and the object is gone. -/
theorem image_removed_by_other :
    ∃ cfg, (imageSystem {}).Reach System.Always (imageStart twoOwners) cfg ∧
      storageReturned cfg 0 = true ∧ storageReturned cfg 1 = true ∧
        cfg.ghost.removals = [⟨"dishes/large/0123456789ab.webp", 1, 2⟩] := by
  have hrun : ((imageSystem {}).follow (fun _ _ => true) (uploadThenDelete 2)
      (imageStart twoOwners)).any (fun cfg => (storageReturned cfg 0 && storageReturned cfg 1) &&
        cfg.ghost.removals = [⟨"dishes/large/0123456789ab.webp", 1, 2⟩]) = true := by
    decide +kernel
  obtain ⟨cfg, hreach, hp⟩ := System.exists_reach_of_follow hrun
  simp only [Bool.and_eq_true, decide_eq_true_eq] at hp
  exact ⟨cfg, hreach, hp.1.1, hp.1.2, hp.2⟩

end LiveMenu
