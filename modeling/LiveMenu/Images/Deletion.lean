import Mathlib.Data.List.DropRight
import LiveMenu.Images.Isolation

/-!
# What a deletion by URL removes

`upload` puts a slash between the public prefix and the key, `delete_image` takes the URL apart
without looking at the character after the prefix. So it also takes apart the URLs of a bucket whose
name begins with ours.
-/

namespace LiveMenu

/-! ### Texts -/

lemma startswith_iff {s pre : String} : startswith s pre = true ↔ ∃ t, s = pre ++ t := by
  constructor
  · intro h
    obtain ⟨t, ht⟩ := List.isPrefixOf_iff_prefix.mp h
    refine ⟨String.ofList t, String.toList_injective ?_⟩
    rw [← ht, String.toList_append, String.toList_ofList]
  · rintro ⟨t, rfl⟩
    exact startswith_append pre t

lemma startswith_rstripSlashes (s : String) : startswith s (rstripSlashes s) = true := by
  apply List.isPrefixOf_iff_prefix.mpr
  rw [rstripSlashes, String.toList_ofList]
  exact List.rdropWhile_prefix (· = '/') s.toList

lemma length_rstripSlashes_le (s : String) : (rstripSlashes s).length ≤ s.length := by
  obtain ⟨t, ht⟩ := startswith_iff.mp (startswith_rstripSlashes s)
  have hlength := congrArg String.length ht
  rw [String.length_append] at hlength
  omega

/-- Stripping that shortens nothing changes nothing. -/
lemma rstripSlashes_eq_self {s : String} (h : s.length ≤ (rstripSlashes s).length) :
    rstripSlashes s = s := by
  obtain ⟨t, ht⟩ := startswith_iff.mp (startswith_rstripSlashes s)
  have hlength := congrArg String.length ht
  rw [String.length_append] at hlength
  have hempty : t.length = 0 := by omega
  rw [String.length_eq_zero_iff.mp hempty, String.append_empty] at ht
  exact ht.symm

/-- `url[len(prefix) + 1:]`. -/
def keyOf (pre url : String) : String := String.ofList (url.toList.drop (pre.length + 1))

@[simp] lemma length_keyOf (pre url : String) :
    (keyOf pre url).length = url.length - (pre.length + 1) := by
  rw [keyOf, String.length_ofList, List.length_drop, String.length_toList]

lemma keyOf_eq_empty {pre url : String} : keyOf pre url = "" ↔ url.length ≤ pre.length + 1 := by
  rw [← String.length_eq_zero_iff, length_keyOf, Nat.sub_eq_zero_iff_le]

lemma keyOf_publicUrl (pre key : String) : keyOf pre (pre ++ "/" ++ key) = key :=
  drop_publicUrl pre key

/-- The key is the one that the URL was put together from if and only if there is no slash to strip
and the character that is skipped is the slash. -/
lemma eq_publicUrl_iff {pre url : String} (h : startswith url (rstripSlashes pre) = true)
    (hkey : keyOf (rstripSlashes pre) url ≠ "") :
    url = pre ++ "/" ++ keyOf (rstripSlashes pre) url ↔
      rstripSlashes pre = pre ∧ startswith url (pre ++ "/") = true := by
  constructor
  · intro hurl
    have hlength := congrArg String.length hurl
    have hone : "/".length = 1 := rfl
    rw [ne_eq, keyOf_eq_empty, not_le] at hkey
    simp only [String.length_append, length_keyOf] at hlength
    exact ⟨rstripSlashes_eq_self (by omega), startswith_iff.mpr ⟨_, hurl⟩⟩
  · rintro ⟨hpre, hslash⟩
    obtain ⟨t, rfl⟩ := startswith_iff.mp hslash
    rw [hpre, keyOf_publicUrl]

lemma startswith_publicUrl (pre key : String) :
    startswith (pre ++ "/" ++ key) (rstripSlashes pre) = true := by
  obtain ⟨t, ht⟩ := startswith_iff.mp (startswith_rstripSlashes pre)
  refine startswith_iff.mpr ⟨t ++ "/" ++ key, ?_⟩
  conv_lhs => rw [ht]
  simp only [String.append_assoc]

/-- The URL is taken apart into the key that it was put together from. -/
def TakesApart (pre url : String) : Prop :=
  ∀ key, key ≠ "" →
    ((startswith url (rstripSlashes pre) = true ∧ key = keyOf (rstripSlashes pre) url)
    ↔ url = pre ++ "/" ++ key)

lemma takesApart_iff (pre url : String) :
    TakesApart pre url ↔ startswith url (rstripSlashes pre) = false ∨
      url.length ≤ (rstripSlashes pre).length + 1 ∨
      rstripSlashes pre = pre ∧ startswith url (pre ++ "/") = true := by
  cases hstart : startswith url (rstripSlashes pre) with
  | false =>
    have hnone : TakesApart pre url := by
      intro key _
      rw [hstart]
      constructor
      · rintro ⟨⟨⟩, -⟩
      · rintro rfl
        rw [startswith_publicUrl] at hstart
        cases hstart
    simp [hnone]
  | true =>
    by_cases hkey : keyOf (rstripSlashes pre) url = ""
    · have hnone : TakesApart pre url := by
        intro key hne
        rw [hkey]
        constructor
        · rintro ⟨-, hempty⟩
          exact absurd hempty hne
        · rintro rfl
          have hpre := length_rstripSlashes_le pre
          have hpos : key.length ≠ 0 := mt String.length_eq_zero_iff.mp hne
          have hone : "/".length = 1 := rfl
          rw [keyOf_eq_empty] at hkey
          simp only [String.length_append] at hkey
          omega
      exact iff_of_true hnone (.inr (.inl (keyOf_eq_empty.mp hkey)))
    · have hlong : ¬ url.length ≤ (rstripSlashes pre).length + 1 := mt keyOf_eq_empty.mpr hkey
      rw [← eq_publicUrl_iff hstart hkey]
      simp only [hlong, Bool.true_eq_false, false_or]
      constructor
      · intro h
        exact (h _ hkey).mp ⟨hstart, rfl⟩
      · intro hurl key _
        constructor
        · rintro ⟨-, rfl⟩
          exact hurl
        · intro hurl'
          exact ⟨hstart, (String.append_right_inj _).mp (hurl'.symm.trans hurl)⟩

/-! ### One deletion -/

lemma StorageBackend.bucket_delete (backend : StorageBackend) (key : String) (w : StorageWorld) :
    ((backend.delete key false).exec w).2.bucket = w.bucket.delete key := by
  rw [StorageBackend.delete, Prog.exec_attempt]
  cases backend with
  | s3 publicUrl => rfl
  | gcs bucket publicUrl =>
    by_cases hkey : key ∈ w.bucket.keys
    · simp only [hkey, if_true]
    · simp only [hkey, if_false]
      exact (Bucket.delete_of_not_mem hkey).symm

lemma bucket_deleteImage {S : StorageSettings} {backend : StorageBackend}
    (h : getStorage S = pure backend) (url : String) (w : StorageWorld) :
    ((deleteImage S url false).exec w).2.bucket =
      if startswith url (rstripSlashes backend.publicPrefix) then
        w.bucket.delete (keyOf (rstripSlashes backend.publicPrefix) url)
      else w.bucket := by
  have hprefix : getPublicPrefix S = pure backend.publicPrefix := by
    rw [getPublicPrefix, h]
    rfl
  simp only [deleteImage, deleteFileFromS3, hprefix, h, Prog.pure_bind]
  split_ifs
  · exact backend.bucket_delete _ w
  · rfl

/-! ### Exact deletions -/

/-- The deletion of the URL removes the object whose URL it is, and no other. -/
def DeletesExactly (S : StorageSettings) (backend : StorageBackend) (url : String) : Prop :=
  ∀ w : StorageWorld, (∀ o ∈ w.bucket, o.1 ≠ "") →
    ((deleteImage S url false).exec w).2.bucket
      = w.bucket.filter fun o => url ≠ backend.publicPrefix ++ "/" ++ o.1

/-- The deletion of the URL that an upload has returned removes what was uploaded. -/
def DeletesUploaded (S : StorageSettings) (key : String) : Prop :=
  ∀ (payload : Bytes) (w : StorageWorld),
    (do let url ← uploadFileToS3 S payload key false; deleteImage S url false).exec w
      = (.ok (), { w with bucket := w.bucket.delete key })

variable {S : StorageSettings} {backend : StorageBackend}

lemma deletesExactly_iff (h : getStorage S = pure backend) (url : String) :
    DeletesExactly S backend url ↔ TakesApart backend.publicPrefix url := by
  have hrun : ∀ w : StorageWorld, ((deleteImage S url false).exec w).2.bucket =
      w.bucket.filter fun o => ¬ (startswith url (rstripSlashes backend.publicPrefix) = true ∧
        o.1 = keyOf (rstripSlashes backend.publicPrefix) url) := by
    intro w
    rw [bucket_deleteImage h]
    split_ifs with hstart
    · simp [Bucket.delete, hstart]
    · simp [hstart]
  constructor
  · intro hexact key hkey
    -- a bucket with one object
    have hone := hexact ⟨World.sample, [(key, [])]⟩ (by simpa using hkey)
    rw [hrun] at hone
    have hmem := congrArg (fun b : Bucket => (key, []) ∈ b) hone
    simp only [List.mem_filter, List.mem_singleton, true_and, decide_eq_true_eq, eq_iff_iff] at hmem
    exact not_iff_not.mp hmem
  · intro htakes w hw
    rw [hrun]
    apply List.filter_congr
    intro o ho
    rw [decide_eq_decide]
    exact not_congr (htakes o.1 (hw o ho))

lemma Bucket.delete_put (b : Bucket) (key : String) (payload : Bytes) :
    (b.put key payload).delete key = b.delete key := by
  simp [Bucket.put, Bucket.delete, List.filter_append]

lemma exec_uploadFileToS3 (h : getStorage S = pure backend) (payload : Bytes) (key : String)
    (w : StorageWorld) :
    (uploadFileToS3 S payload key false).exec w
      = (.ok (backend.publicPrefix ++ "/" ++ key),
        { w with bucket := w.bucket.put key payload }) := by
  rw [uploadFileToS3, h]
  rfl

/-- The deletion of an object that is there does not fail. -/
lemma StorageBackend.exec_delete_of_mem (backend : StorageBackend) {key : String} {w : StorageWorld}
    (h : key ∈ w.bucket.keys) :
    (backend.delete key false).exec w = (.ok (), { w with bucket := w.bucket.delete key }) := by
  rw [StorageBackend.delete, Prog.exec_attempt]
  cases backend with
  | s3 publicUrl => rfl
  | gcs bucket publicUrl => simp only [h, if_true]

lemma deletesUploaded_iff (h : getStorage S = pure backend) (key : String) :
    DeletesUploaded S key ↔ rstripSlashes backend.publicPrefix = backend.publicPrefix := by
  constructor
  · intro hdeletes
    have hrun := congrArg (fun r => r.2.bucket) (hdeletes [] ⟨World.sample, []⟩)
    rw [Prog.exec_bind_ok (exec_uploadFileToS3 h [] key _)] at hrun
    simp only [bucket_deleteImage h, startswith_publicUrl, if_true] at hrun
    have hkey : key = keyOf (rstripSlashes backend.publicPrefix)
        (backend.publicPrefix ++ "/" ++ key) := by
      simpa [Bucket.put, Bucket.delete] using hrun
    have hlength := congrArg String.length hkey
    have hone : "/".length = 1 := rfl
    simp only [length_keyOf, String.length_append] at hlength
    exact rstripSlashes_eq_self (by omega)
  · intro hpre payload w
    have hmem : key ∈ (w.bucket.put key payload).keys := by simp [Bucket.put, Bucket.keys]
    have hdelete := deleteImage_publicUrl h key false
    rw [hpre] at hdelete
    rw [Prog.exec_bind_ok (exec_uploadFileToS3 h payload key w), hdelete,
      backend.exec_delete_of_mem hmem, Bucket.delete_put]

/-- A deletion is exact for the URLs that do not begin with the public prefix, or with little more
than it, and for those where a slash follows a prefix without a slash at its end. So what was
uploaded is removed if and only if the prefix has no slash at its end. -/
theorem deleteImage_exact_iff (h : getStorage S = pure backend) :
    (∀ url, DeletesExactly S backend url ↔
      startswith url (rstripSlashes backend.publicPrefix) = false ∨
      url.length ≤ (rstripSlashes backend.publicPrefix).length + 1 ∨
      rstripSlashes backend.publicPrefix = backend.publicPrefix ∧
        startswith url (backend.publicPrefix ++ "/") = true) ∧
    ∀ key, DeletesUploaded S key ↔ rstripSlashes backend.publicPrefix = backend.publicPrefix := by
  constructor
  · intro url
    rw [deletesExactly_iff h, takesApart_iff]
  · exact deletesUploaded_iff h

/-- With the default settings what was uploaded can be deleted by its URL. -/
theorem deleteImage_exact_default : DeletesUploaded {} "dishes/large/abc.webp" := by
  have hbackend : getStorage {} = pure (StorageBackend.s3 "http://localhost:9000/livemenu") := rfl
  exact ((deleteImage_exact_iff hbackend).2 _).mpr (by decide)

/-- The URL is one of the bucket `livemenu-private`, the object that is removed is one of ours. -/
theorem deleteImage_sibling_bucket :
    ((deleteImage {} "http://localhost:9000/livemenu-private/a.webp" false).exec
        ⟨World.sample, [("private/a.webp", [1])]⟩).2.bucket = [] ∧
      "http://localhost:9000/livemenu-private/a.webp"
        ≠ "http://localhost:9000/livemenu" ++ "/" ++ "private/a.webp" := by
  decide +kernel

end LiveMenu
