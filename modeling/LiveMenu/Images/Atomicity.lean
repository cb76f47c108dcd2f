import LiveMenu.Images.Isolation
import LiveMenu.Images.ObjectKeys

/-!
# An upload that fails halfway

The uploads of the variants run side by side. `gather` raises the first exception, and what the
others have stored stays in the bucket.
-/

namespace LiveMenu

variable {S : StorageSettings} {draws : UploadDraws} {fileBytes : Bytes} {pre filename : String}

/-! ### Processing -/

/-- The data of the variants, once all are processed. -/
def variantData (draws : UploadDraws) (fileBytes : Bytes) (variants : List ImageVariant) :
    List (String × Bytes) :=
  variants.map fun v => (v.name, (draws.processImageVariant fileBytes v.size v.quality).getD [])

/-- No variant fails in the image library. -/
def AllProcessed (draws : UploadDraws) (fileBytes : Bytes) (variants : List ImageVariant) : Prop :=
  ∀ v ∈ variants, (draws.processImageVariant fileBytes v.size v.quality).isSome = true

lemma processVariants_ok {variants : List ImageVariant}
    (h : AllProcessed draws fileBytes variants) :
    processVariants draws fileBytes variants = pure (variantData draws fileBytes variants) := by
  induction variants with
  | nil => rfl
  | cons v vs ih =>
    obtain ⟨hv, hvs⟩ := List.forall_mem_cons.mp h
    obtain ⟨payload, hpayload⟩ := Option.isSome_iff_exists.mp hv
    rw [processVariants, hpayload]
    simp only [ih hvs, variantData, List.map_cons, hpayload, Option.getD_some]
    rfl

lemma processVariants_error {variants : List ImageVariant}
    (h : ¬ AllProcessed draws fileBytes variants) :
    processVariants draws fileBytes variants = Prog.raise .image := by
  induction variants with
  | nil => exact absurd (fun v hv => absurd hv List.not_mem_nil) h
  | cons v vs ih =>
    rw [processVariants]
    cases hpayload : draws.processImageVariant fileBytes v.size v.quality with
    | none => rfl
    | some payload =>
      have hvs : ¬ AllProcessed draws fileBytes vs := by
        intro hvs
        exact h (List.forall_mem_cons.mpr ⟨by rw [hpayload]; rfl, hvs⟩)
      simp only [ih hvs]
      rfl

/-! ### Uploading -/

/-- The key that a task draws for its variant. -/
abbrev drawnKey (draws : UploadDraws) (pre filename name : String) : String :=
  variantKey pre name filename (draws.unique name)

/-- The objects of the tasks that do not fail. -/
def storedObjects (draws : UploadDraws) (pre filename : String) (tasks : List (String × Bytes)) :
    Bucket :=
  (tasks.filter fun t => !draws.fails t.1).map fun t => (drawnKey draws pre filename t.1, t.2)

/-- What a task returns, with the storage configured. -/
def taskResult (backend : StorageBackend) (draws : UploadDraws) (pre filename name : String) :
    Except StorageExc String :=
  if draws.fails name then .error .client
  else .ok (backend.publicPrefix ++ "/" ++ drawnKey draws pre filename name)

/-- Put the objects, one after the other. -/
def Bucket.putAll (b objects : Bucket) : Bucket := objects.foldl (fun b o => b.put o.1 o.2) b

lemma exec_uploadOne {backend : StorageBackend} (h : getStorage S = pure backend) (name : String)
    (payload : Bytes) (w : StorageWorld) :
    ((Except.ok <$> uploadFileToS3 S payload (drawnKey draws pre filename name)
        (draws.fails name)).handle fun e => pure (.error e)).exec w =
      (.ok (taskResult backend draws pre filename name),
        { w with
          bucket := w.bucket.putAll (storedObjects draws pre filename [(name, payload)]) }) := by
  rw [Prog.exec_handle, Prog.exec_map, uploadFileToS3, h, taskResult, storedObjects]
  cases hfails : draws.fails name with
  | false =>
    simp only [List.filter_cons, hfails]
    rfl
  | true =>
    simp only [List.filter_cons, hfails]
    rfl

lemma storedObjects_cons (task : String × Bytes) (tasks : List (String × Bytes)) :
    storedObjects draws pre filename (task :: tasks)
      = storedObjects draws pre filename [task] ++ storedObjects draws pre filename tasks := by
  rw [storedObjects, storedObjects, storedObjects, ← List.map_append, ← List.filter_append]
  rfl

/-- Every task runs to its end, whatever the others do. -/
lemma exec_uploadVariants {backend : StorageBackend} (h : getStorage S = pure backend)
    (tasks : List (String × Bytes)) (w : StorageWorld) :
    (uploadVariants S draws pre filename tasks).exec w =
      (.ok (tasks.map fun t => (t.1, taskResult backend draws pre filename t.1)),
        { w with bucket := w.bucket.putAll (storedObjects draws pre filename tasks) }) := by
  induction tasks generalizing w with
  | nil => rfl
  | cons task tasks ih =>
    rw [uploadVariants, Prog.exec_bind_ok (exec_uploadOne h task.1 task.2 w),
      Prog.exec_bind_ok (ih _), storedObjects_cons task tasks]
    simp only [Prog.exec_pure, Bucket.putAll, List.foldl_append, List.map_cons]

lemma exec_uploadVariants_unconfigured (h : getStorage S = Prog.raise .runtime)
    (tasks : List (String × Bytes)) (w : StorageWorld) :
    (uploadVariants S draws pre filename tasks).exec w =
      (.ok (tasks.map fun t => (t.1, .error .runtime)), w) := by
  induction tasks generalizing w with
  | nil => rfl
  | cons task tasks ih =>
    have hone : ((Except.ok <$> uploadFileToS3 S task.2 (drawnKey draws pre filename task.1)
        (draws.fails task.1)).handle fun e => pure (.error e)).exec w
          = (.ok (.error .runtime), w) := by
      rw [uploadFileToS3, h]
      rfl
    rw [uploadVariants, Prog.exec_bind_ok hone, Prog.exec_bind_ok (ih _)]
    rfl

/-- New objects come after those that were there. -/
lemma Bucket.putAll_fresh {b objects : Bucket} (hnodup : objects.keys.Nodup)
    (hfresh : ∀ key ∈ objects.keys, key ∉ b.keys) : b.putAll objects = b ++ objects := by
  induction objects generalizing b with
  | nil => simp [putAll]
  | cons o objects ih =>
    obtain ⟨hhead, hrest⟩ := List.nodup_cons.mp hnodup
    obtain ⟨ho, hobjects⟩ := List.forall_mem_cons.mp hfresh
    have hput : b.put o.1 o.2 = b ++ [o] := by
      rw [put, delete_of_not_mem ho]
    have hfresh' : ∀ key ∈ keys objects, key ∉ keys (b ++ [o]) := by
      intro key hkey hmem
      rw [keys, List.map_append, List.mem_append] at hmem
      rcases hmem with hmem | hmem
      · exact hobjects key hkey hmem
      · rw [List.mem_singleton.mp hmem] at hkey
        exact hhead hkey
    rw [putAll, List.foldl_cons, hput]
    exact (ih hrest hfresh').trans (List.append_assoc b [o] objects)

/-! ### Gathering -/

lemma gatherUrls_ok {α : Type} (tasks : List (String × α)) (url : String → String) :
    gatherUrls (tasks.map fun t => (t.1, .ok (url t.1)))
      = pure (tasks.map fun t => (t.1, url t.1)) := by
  induction tasks with
  | nil => rfl
  | cons task tasks ih =>
    rw [List.map_cons, gatherUrls, ih]
    rfl

/-- One failed task makes the whole fail. -/
lemma gatherUrls_error {results : List (String × Except StorageExc String)}
    (h : ∃ r ∈ results, ∃ e, r.2 = .error e) : ∃ e, gatherUrls results = Prog.raise e := by
  induction results with
  | nil =>
    obtain ⟨r, hr, -⟩ := h
    cases hr
  | cons result results ih =>
    obtain ⟨name, r⟩ := result
    cases r with
    | error e => exact ⟨e, rfl⟩
    | ok url =>
      obtain ⟨r, hr, e, he⟩ := h
      rcases List.mem_cons.mp hr with rfl | hr
      · cases he
      · obtain ⟨e', he'⟩ := ih ⟨r, hr, e, he⟩
        refine ⟨e', ?_⟩
        rw [gatherUrls, he']
        rfl

/-- The URLs are put back in the order of the table. -/
lemma filterMap_find?_urls {α : Type} {data tasks : List (String × α)} (h : tasks.Perm data)
    (url : String → String) :
    data.filterMap (fun v => (tasks.map fun t => (t.1, url t.1)).find? fun u => u.1 = v.1)
      = data.map fun t => (t.1, url t.1) := by
  have hfound : ∀ v ∈ data, (tasks.map fun t => (t.1, url t.1)).find? (fun u => u.1 = v.1)
      = some (v.1, url v.1) := by
    intro v hv
    have hsome : (tasks.find? fun t => t.1 = v.1).isSome = true :=
      List.find?_isSome.mpr ⟨v, h.mem_iff.mpr hv, by simp⟩
    obtain ⟨t, ht⟩ := Option.isSome_iff_exists.mp hsome
    have hname : t.1 = v.1 := by simpa using List.find?_some ht
    rw [List.find?_map]
    simp only [Function.comp_def, ht, Option.map_some, hname]
  rw [List.filterMap_congr hfound]
  exact congrFun List.filterMap_eq_map data

/-! ### The whole upload -/

/-- The input passes the checks. -/
def Admitted (S : StorageSettings) (fileBytes : Bytes) (contentType : String) : Prop :=
  fileBytes.length ≤ S.imageMaxSizeMb * 1024 * 1024 ∧ contentType ∈ allowedContentTypes

variable {variants : List ImageVariant} {contentType : String}

/-- The upload of input that passes the checks. -/
lemma processAndUploadVariants_eq (h : Admitted S fileBytes contentType) :
    processAndUploadVariants variants S draws fileBytes contentType pre filename = (do
      let variantData ← processVariants draws fileBytes variants
      let results ← uploadVariants S draws pre filename (draws.done.order variantData)
      let urls ← gatherUrls results
      return variantData.filterMap fun v => urls.find? fun u => u.1 = v.1) := by
  rw [processAndUploadVariants, if_neg (not_lt.mpr h.1), if_neg (not_not.mpr h.2)]

lemma exec_unprocessed (h : Admitted S fileBytes contentType)
    (hfails : ¬ AllProcessed draws fileBytes variants) (w : StorageWorld) :
    (processAndUploadVariants variants S draws fileBytes contentType pre filename).exec w
      = (.error .image, w) := by
  rw [processAndUploadVariants_eq h, processVariants_error hfails]
  rfl

/-- The tasks, in the order in which they are done. -/
abbrev doneTasks (draws : UploadDraws) (fileBytes : Bytes) (variants : List ImageVariant) :
    List (String × Bytes) :=
  draws.done.order (variantData draws fileBytes variants)

lemma mem_doneTasks {t : String × Bytes} :
    t ∈ doneTasks draws fileBytes variants ↔ ∃ v ∈ variants,
      (v.name, (draws.processImageVariant fileBytes v.size v.quality).getD []) = t := by
  rw [doneTasks, (draws.done.perm _).mem_iff, variantData, List.mem_map]

/-- Once the tasks are done, either one of them has failed and so does the upload, or the upload
returns the URLs of all. -/
lemma exec_of_results (h : Admitted S fileBytes contentType)
    (hprocessed : AllProcessed draws fileBytes variants) {w w' : StorageWorld}
    (result : String → Except StorageExc String)
    (hrun : (uploadVariants S draws pre filename (doneTasks draws fileBytes variants)).exec w
      = (.ok ((doneTasks draws fileBytes variants).map fun t => (t.1, result t.1)), w')) :
    ((∃ v ∈ variants, ∃ e, result v.name = .error e) ∧
      ∃ e, (processAndUploadVariants variants S draws fileBytes contentType pre filename).exec w
        = (.error e, w')) ∨
    ∃ url : String → String, (∀ v ∈ variants, result v.name = .ok (url v.name)) ∧
      (processAndUploadVariants variants S draws fileBytes contentType pre filename).exec w
        = (.ok (variants.map fun v => (v.name, url v.name)), w') := by
  rw [processAndUploadVariants_eq h, processVariants_ok hprocessed, Prog.exec_pure_bind,
    Prog.exec_bind_ok hrun]
  by_cases hfailed : ∃ v ∈ variants, ∃ e, result v.name = .error e
  · obtain ⟨v, hv, e, he⟩ := hfailed
    have htask : (v.name, (draws.processImageVariant fileBytes v.size v.quality).getD [])
        ∈ doneTasks draws fileBytes variants := mem_doneTasks.mpr ⟨v, hv, rfl⟩
    have hmem := List.mem_map_of_mem (f := fun t => (t.1, result t.1)) htask
    obtain ⟨e', he'⟩ := gatherUrls_error ⟨_, hmem, e, he⟩
    refine .inl ⟨⟨v, hv, e, he⟩, e', ?_⟩
    rw [he']
    rfl
  · have hok : ∃ url : String → String, ∀ v ∈ variants, result v.name = .ok (url v.name) := by
      refine ⟨fun name => (result name).toOption.getD "", ?_⟩
      intro v hv
      cases hr : result v.name with
      | ok url =>
        simp only [hr]
        rfl
      | error e => exact absurd ⟨v, hv, e, hr⟩ hfailed
    obtain ⟨url, hurl⟩ := hok
    have hresults : ((doneTasks draws fileBytes variants).map fun t => (t.1, result t.1))
        = (doneTasks draws fileBytes variants).map fun t => (t.1, .ok (url t.1)) := by
      apply List.map_congr_left
      intro t ht
      obtain ⟨v, hv, rfl⟩ := mem_doneTasks.mp ht
      rw [hurl v hv]
    refine .inr ⟨url, hurl, ?_⟩
    rw [hresults, gatherUrls_ok, Prog.exec_pure_bind, Prog.exec_pure,
      filterMap_find?_urls (draws.done.perm _), variantData, List.map_map]
    rfl

/-! ### The bucket -/

lemma nodup_doneTasks (h : (variants.map (·.name)).Nodup) :
    ((doneTasks draws fileBytes variants).map Prod.fst).Nodup := by
  have hperm := (draws.done.perm (variantData draws fileBytes variants)).map Prod.fst
  have hnames : (variantData draws fileBytes variants).map Prod.fst = variants.map (·.name) := by
    rw [variantData, List.map_map]
    rfl
  exact hperm.nodup_iff.mpr (hnames ▸ h)

/-- The keys of the variants are not in the bucket. -/
def FreshKeys (draws : UploadDraws) (pre filename : String) (variants : List ImageVariant)
    (b : Bucket) : Prop :=
  ∀ v ∈ variants, drawnKey draws pre filename v.name ∉ b.keys

lemma mem_storedObjects {o : String × Bytes} :
    o ∈ storedObjects draws pre filename (doneTasks draws fileBytes variants) ↔
      ∃ v ∈ variants, draws.fails v.name = false ∧ o = (drawnKey draws pre filename v.name,
        (draws.processImageVariant fileBytes v.size v.quality).getD []) := by
  rw [storedObjects, List.mem_map]
  constructor
  · rintro ⟨t, ht, rfl⟩
    obtain ⟨ht, hfails⟩ := List.mem_filter.mp ht
    obtain ⟨v, hv, rfl⟩ := mem_doneTasks.mp ht
    exact ⟨v, hv, by simpa using hfails, rfl⟩
  · rintro ⟨v, hv, hfails, rfl⟩
    exact ⟨_, List.mem_filter.mpr ⟨mem_doneTasks.mpr ⟨v, hv, rfl⟩, by simpa using hfails⟩, rfl⟩

/-- What is stored comes after what was there. -/
lemma putAll_storedObjects {b : Bucket} (hnames : (variants.map (·.name)).Nodup)
    (hfresh : FreshKeys draws pre filename variants b) :
    b.putAll (storedObjects draws pre filename (doneTasks draws fileBytes variants))
      = b ++ storedObjects draws pre filename (doneTasks draws fileBytes variants) := by
  apply Bucket.putAll_fresh
  · have hkeys : (storedObjects draws pre filename (doneTasks draws fileBytes variants)).keys
        = (((doneTasks draws fileBytes variants).filter fun t => !draws.fails t.1).map Prod.fst).map
          (drawnKey draws pre filename) := by
      rw [storedObjects, Bucket.keys, List.map_map, List.map_map]
      rfl
    have hsub : (((doneTasks draws fileBytes variants).filter fun t => !draws.fails t.1).map
        Prod.fst).Nodup :=
      (nodup_doneTasks hnames).sublist (List.filter_sublist.map Prod.fst)
    rw [hkeys]
    exact hsub.map fun name name' h => (variantKey_inj.mp h).1
  · intro key hkey
    obtain ⟨o, ho, rfl⟩ := List.mem_map.mp hkey
    obtain ⟨v, hv, -, rfl⟩ := mem_storedObjects.mp ho
    exact hfresh v hv

/-! ### Outcomes -/

/-- The result maps every name of the table to the URL of a new object with its variant, and no two
names to one object. -/
structure StoresAll (S : StorageSettings) (draws : UploadDraws) (fileBytes : Bytes)
    (variants : List ImageVariant) (w : StorageWorld) (urls : List (String × String))
    (w' : StorageWorld) : Prop where
  names : urls.map Prod.fst = variants.map (·.name)
  objects : ∃ key : String → String,
    (∀ v ∈ variants, ∀ v' ∈ variants, key v.name = key v'.name → v.name = v'.name) ∧
    ∀ v ∈ variants, key v.name ∉ w.bucket.keys ∧ ∃ backend payload,
      getStorage S = pure backend ∧
      draws.processImageVariant fileBytes v.size v.quality = some payload ∧
      (v.name, backend.publicPrefix ++ "/" ++ key v.name) ∈ urls ∧
      (key v.name, payload) ∈ w'.bucket

/-- The object of a variant whose own upload succeeded. -/
def Succeeded (S : StorageSettings) (draws : UploadDraws) (fileBytes : Bytes)
    (pre filename : String) (variants : List ImageVariant) (o : String × Bytes) : Prop :=
  AllProcessed draws fileBytes variants ∧ (∃ backend, getStorage S = pure backend) ∧
    ∃ v ∈ variants, draws.fails v.name = false ∧ ∃ payload,
      draws.processImageVariant fileBytes v.size v.quality = some payload ∧
      o = (drawnKey draws pre filename v.name, payload)

/-- An upload that returns stores all variants, one that raises leaves those that were uploaded. -/
def UploadOutcome (S : StorageSettings) (draws : UploadDraws) (fileBytes : Bytes)
    (pre filename : String) (variants : List ImageVariant) (w : StorageWorld) :
    Except StorageExc (List (String × String)) × StorageWorld → Prop
  | (.ok urls, w')  => StoresAll S draws fileBytes variants w urls w'
  | (.error _, w')  => ∀ o, o ∈ w'.bucket ↔
      o ∈ w.bucket ∨ Succeeded S draws fileBytes pre filename variants o

section Outcomes

variable (hadmitted : Admitted S fileBytes contentType)
  (hprocessed : AllProcessed draws fileBytes variants) (w : StorageWorld)

include hadmitted hprocessed

/-- Without a bucket nothing is stored. -/
lemma uploadOutcome_unconfigured (hstorage : getStorage S = Prog.raise .runtime) :
    UploadOutcome S draws fileBytes pre filename variants w
      ((processAndUploadVariants variants S draws fileBytes contentType pre filename).exec w) := by
  have hrun : (uploadVariants S draws pre filename (doneTasks draws fileBytes variants)).exec w
      = _ := exec_uploadVariants_unconfigured hstorage _ w
  rcases exec_of_results hadmitted hprocessed (fun _ => .error .runtime) hrun with
    ⟨-, e, hx⟩ | ⟨url, hurl, hx⟩
  · rw [hx]
    intro o
    constructor
    · exact .inl
    · rintro (ho | ⟨-, ⟨backend, hpure⟩, -⟩)
      · exact ho
      · rw [hstorage] at hpure
        cases hpure
  · have hnil : variants = [] := by
      apply List.eq_nil_iff_forall_not_mem.mpr
      intro v hv
      cases hurl v hv
    rw [hx, hnil]
    exact ⟨rfl, id, by simp, by simp⟩

lemma uploadOutcome_configured {backend : StorageBackend} (hstorage : getStorage S = pure backend)
    (hnames : (variants.map (·.name)).Nodup)
    (hfresh : FreshKeys draws pre filename variants w.bucket) :
    UploadOutcome S draws fileBytes pre filename variants w
      ((processAndUploadVariants variants S draws fileBytes contentType pre filename).exec w) := by
  have hrun := exec_of_results hadmitted hprocessed (taskResult backend draws pre filename)
    (exec_uploadVariants hstorage _ w)
  rw [putAll_storedObjects hnames hfresh] at hrun
  have hpayload : ∀ v ∈ variants, ∃ payload,
      draws.processImageVariant fileBytes v.size v.quality = some payload :=
    fun v hv => Option.isSome_iff_exists.mp (hprocessed v hv)
  rcases hrun with ⟨-, e, hx⟩ | ⟨url, hurl, hx⟩
  · rw [hx]
    intro o
    rw [List.mem_append, mem_storedObjects]
    apply or_congr_right
    constructor
    · rintro ⟨v, hv, hstored, rfl⟩
      obtain ⟨payload, hpayload⟩ := hpayload v hv
      rw [hpayload]
      exact ⟨hprocessed, ⟨backend, hstorage⟩, v, hv, hstored, payload, hpayload, rfl⟩
    · rintro ⟨-, -, v, hv, hstored, payload, hpayload, rfl⟩
      refine ⟨v, hv, hstored, ?_⟩
      rw [hpayload]
      rfl
  · have hstored : ∀ v ∈ variants, draws.fails v.name = false ∧
        url v.name = backend.publicPrefix ++ "/" ++ drawnKey draws pre filename v.name := by
      intro v hv
      have hresult := hurl v hv
      rw [taskResult] at hresult
      split_ifs at hresult with hfails
      exact ⟨Bool.eq_false_of_not_eq_true hfails, (Except.ok.inj hresult).symm⟩
    rw [hx]
    refine ⟨?_, drawnKey draws pre filename, ?_, ?_⟩
    · rw [List.map_map]
      rfl
    · intro v _ v' _ h
      exact (variantKey_inj.mp h).1
    · intro v hv
      obtain ⟨payload, hpayload⟩ := hpayload v hv
      refine ⟨hfresh v hv, backend, payload, hstorage, hpayload, ?_, ?_⟩
      · rw [← (hstored v hv).2]
        exact List.mem_map_of_mem hv
      · apply List.mem_append_right
        exact mem_storedObjects.mpr ⟨v, hv, (hstored v hv).1, by rw [hpayload]; rfl⟩

end Outcomes

/-- An upload of accepted input that returns has stored every variant as a new object of its own.
One that raises leaves in the bucket what was there and the variants whose own uploads succeeded. -/
theorem upload_outcome (hadmitted : Admitted S fileBytes contentType)
    (hnames : (variants.map (·.name)).Nodup) (w : StorageWorld)
    (hfresh : FreshKeys draws pre filename variants w.bucket) :
    UploadOutcome S draws fileBytes pre filename variants w
      ((processAndUploadVariants variants S draws fileBytes contentType pre filename).exec w) := by
  by_cases hprocessed : AllProcessed draws fileBytes variants
  · rcases getStorage_cases S with hstorage | ⟨backend, hstorage⟩
    · exact uploadOutcome_unconfigured hadmitted hprocessed w hstorage
    · exact uploadOutcome_configured hadmitted hprocessed w hstorage hnames hfresh
  · rw [exec_unprocessed hadmitted hprocessed]
    intro o
    constructor
    · exact .inl
    · rintro (ho | ⟨hall, -⟩)
      · exact ho
      · exact absurd hall hprocessed

/-- Ana uploads an image, and the request for its medium variant fails. -/
def mediumFails : UploadDraws := { anasDraws with fails := fun name => name = "medium" }

theorem upload_outcome_medium :
    UploadOutcome {} mediumFails [1, 2, 3] "dishes" "sopa.png" imageVariants ⟨World.sample, []⟩
      ((processAndUploadVariants imageVariants {} mediumFails [1, 2, 3] "image/png" "dishes"
        "sopa.png").exec ⟨World.sample, []⟩) := by
  have hadmitted : Admitted {} [1, 2, 3] "image/png" := ⟨by decide, by decide⟩
  have hfresh : FreshKeys mediumFails "dishes" "sopa.png" imageVariants [] :=
    fun v _ => List.not_mem_nil
  exact upload_outcome hadmitted (by decide) ⟨World.sample, []⟩ hfresh

/-- The upload raises, and the two other variants stay in the bucket. -/
theorem upload_leaves_objects :
    let run := (processAndUploadImage {} mediumFails [1, 2, 3] "image/png" "dishes"
      "sopa.png").exec ⟨World.sample, []⟩
    run.1 = .error .client ∧ run.2.bucket.keys
      = ["dishes/thumbnail/0123456789ab.webp", "dishes/large/0123456789ab.webp"] := by
  decide +kernel

end LiveMenu
