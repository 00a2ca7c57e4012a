import SpotiFriend.Spec.Actions
import SpotiFriend.Text.UriText

/-!
# The names of pictures

A picture is stored under a fresh name, and later that name is cut out of its download URL.
The URL has a bucket before the name and a token after it, and the token may be anything.

* `oldUUID_url`: the name is what is cut out;
* `urlOf_downloadURL`: such a URL is well formed;
* `deleteOldPicture_url`: so the picture that is deleted is the one that was stored.
-/

namespace SpotiFriend

open Text SpotiFriend.Action

namespace ProfileVC

def isUUIDChar (c : Char) : Bool := Uri.isHexdig c || c = '-'

variable {bucket uuid token : List Char}

/-- The part of the URL that comes before the name has no separator but the last. -/
theorem components_bucket (hbucket : hasInfix "media%2F".toList bucket = false) (s : List Char) :
    components "media%2F".toList
      ("https://firebasestorage.googleapis.com/v0/b".toList ++ '/' :: (bucket ++ '/' ::
        ("o".toList ++ '/' :: ("media%2F".toList ++ s)))) =
    ("https://firebasestorage.googleapis.com/v0/b".toList ++ '/' :: (bucket ++ '/' ::
      ("o".toList ++ ['/']))) :: components "media%2F".toList s := by
  have hslash : '/' ∉ "media%2F".toList := by decide
  have hnone : hasInfix "media%2F".toList
      (("https://firebasestorage.googleapis.com/v0/b".toList ++ '/' :: (bucket ++ '/' ::
        ("o".toList ++ ['/']))) ++ "media%2F".toList.dropLast) = false := by
    simp only [List.append_assoc, List.cons_append, List.nil_append]
    rw [hasInfix_append_cons hslash, hasInfix_append_cons hslash, hbucket, hasInfix_append_cons hslash]
    decide
  have hsplit := components_append (by decide) hnone s
  simpa only [List.append_assoc, List.cons_append, List.nil_append] using hsplit

theorem downloadURL_toList (P : Platform) (uuid : String) :
    (P.downloadURL (uuid ++ ".jpg")).toList =
      "https://firebasestorage.googleapis.com/v0/b".toList ++ '/' :: (P.bucket.toList ++ '/' ::
        ("o".toList ++ '/' :: ("media%2F".toList ++ ((uuid.toList ++ ".jpg?alt=".toList) ++
          ("media&token=".toList ++ (P.token (uuid ++ ".jpg")).toList))))) := by
  have hhost : "https://firebasestorage.googleapis.com/v0/b/".toList =
      "https://firebasestorage.googleapis.com/v0/b".toList ++ ['/'] := by decide
  have hfolder : "/o/media%2F".toList = '/' :: ("o".toList ++ '/' :: "media%2F".toList) := by decide
  have hjpg : ".jpg?alt=".toList = ".jpg".toList ++ "?alt=".toList := by decide
  have hquery : "?alt=media&token=".toList = "?alt=".toList ++ "media&token=".toList := by decide
  unfold Platform.downloadURL
  simp only [String.toList_append, hhost, hfolder, hjpg, hquery, List.append_assoc,
    List.cons_append, List.nil_append]

/-- **The name comes back** out of the download URL. -/
theorem oldUUID_url {P : Platform} {uuid : String}
    (hbucket : hasInfix "media%2F".toList P.bucket.toList = false)
    (huuid : ∀ c ∈ uuid.toList, isUUIDChar c = true) :
    oldUUID (P.downloadURL (uuid ++ ".jpg")) = some (uuid ++ ".jpg") := by
  have hname : ∀ {c : Char} {s : List Char}, isUUIDChar c = false → c ∉ s → c ∉ uuid.toList ++ s := by
    intro c s hc hs hmem
    rcases List.mem_append.mp hmem with hmem | hmem
    · rw [huuid c hmem] at hc
      cases hc
    · exact hs hmem
  -- the token may have separators, but none begins before it
  obtain ⟨first, rest, -, hmedia⟩ := components_append_of_notMem 'm' "edia%2F".toList
    (hname (s := ".jpg?alt=".toList) (by decide) (by decide))
    ("media&token=".toList ++ (P.token (uuid ++ ".jpg")).toList)
  obtain ⟨first', rest', halt, hcut⟩ := components_append_of_notMem '?' "alt".toList
    (hname (s := ".jpg".toList) (by decide) (by decide)) ("?alt".toList ++ ('=' :: first))
  have hempty : first' = [] := by
    have hself := components_self (show "?alt".toList ≠ [] by decide) ('=' :: first)
    exact (List.cons.inj (halt.symm.trans hself)).1
  rw [hempty, List.append_nil] at hcut
  have hjpg : ".jpg?alt=".toList = ".jpg".toList ++ ("?alt".toList ++ ['=']) := by decide
  have hpart : (uuid.toList ++ ".jpg?alt=".toList) ++ first =
      (uuid.toList ++ ".jpg".toList) ++ ("?alt".toList ++ '=' :: first) := by
    simp only [hjpg, List.append_assoc, List.cons_append, List.nil_append]
  rw [oldUUID, downloadURL_toList, components_bucket hbucket,
    show "media%2F".toList = 'm' :: "edia%2F".toList by decide, hmedia]
  simp only [hpart]
  rw [show "?alt".toList = '?' :: "alt".toList by decide] at hcut ⊢
  rw [hcut, ← String.toList_append]
  exact congrArg some (String.ofList_toList ..)

theorem downloadURL_ne (P : Platform) (uuid : String) : P.downloadURL (uuid ++ ".jpg") ≠ "" := by
  intro h
  have hlist := congrArg String.toList h
  rw [downloadURL_toList] at hlist
  exact List.append_ne_nil_of_right_ne_nil _ (List.cons_ne_nil _ _) hlist

theorem isUnreserved_of_isUUIDChar {c : Char} (h : isUUIDChar c = true) : Uri.isUnreserved c = true := by
  simp only [isUUIDChar, Uri.isHexdig, Bool.or_eq_true, Bool.and_eq_true, decide_eq_true_eq] at h
  simp only [Uri.isUnreserved, Uri.isAlpha, Bool.or_eq_true, Bool.and_eq_true, decide_eq_true_eq]
  rcases h with ((hdigit | hlower) | hupper) | rfl
  · exact Or.inl (Or.inr hdigit)
  · exact Or.inl (Or.inl (Or.inl ⟨hlower.1, Char.le_trans hlower.2 (by decide)⟩))
  · exact Or.inl (Or.inl (Or.inr ⟨hupper.1, Char.le_trans hupper.2 (by decide)⟩))
  · exact Or.inr (by decide)

theorem all_of_unreserved {l : List Char} (h : ∀ c ∈ l, Uri.isUnreserved c = true)
    {ok : Char → Bool} (hok : ∀ c, Uri.isUnreserved c = true → ok c = true) :
    l.all (fun c => c ≠ '%' && ok c) = true := by
  refine List.all_eq_true.mpr (fun c hc => ?_)
  rw [Bool.and_eq_true, decide_eq_true_eq]
  refine ⟨?_, hok c (h c hc)⟩
  rintro rfl
  exact absurd (h _ hc) (by decide)

/-- **A download URL is a URL.** -/
theorem urlOf_downloadURL {P : Platform} {uuid : String}
    (hbucket : ∀ c ∈ P.bucket.toList, Uri.isUnreserved c = true)
    (huuid : ∀ c ∈ uuid.toList, isUUIDChar c = true)
    (htoken : ∀ c ∈ (P.token (uuid ++ ".jpg")).toList, Uri.isUnreserved c = true) :
    (urlOf (P.downloadURL (uuid ++ ".jpg"))).isSome = true := by
  have hpchar : ∀ c, Uri.isUnreserved c = true → (Uri.isPchar c || c = '/') = true := by
    intro c hc
    rw [Uri.isPchar, hc]
    rfl
  have hqchar : ∀ c, Uri.isUnreserved c = true → (Uri.isPchar c || c = '/' || c = '?') = true := by
    intro c hc
    rw [Uri.isPchar, hc]
    rfl
  have hescape : ∀ s, Uri.isPath ("/o/media%2F".toList ++ s) = Uri.isPath s := by
    intro s
    have hfolder : "/o/media%2F".toList = "/o/media".toList ++ "%2F".toList := by decide
    rw [hfolder, List.append_assoc, Uri.isPath, Uri.escaped_append _ (by decide)]
    rfl
  have hpath : Uri.isPath ("/v0/b/".toList ++ (P.bucket.toList ++ ("/o/media%2F".toList ++
      (uuid.toList ++ ".jpg".toList)))) = true := by
    rw [Uri.isPath, Uri.escaped_append _ (by decide),
      Uri.escaped_append _ (all_of_unreserved hbucket hpchar)]
    refine (hescape _).trans ?_
    rw [Uri.isPath, Uri.escaped_append _ (all_of_unreserved
      (fun c hc => isUnreserved_of_isUUIDChar (huuid c hc)) hpchar)]
    decide
  have hquery : Uri.isQuery ("alt=media&token=".toList ++ (P.token (uuid ++ ".jpg")).toList) = true := by
    rw [Uri.isQuery, Uri.escaped_append _ (by decide),
      ← List.append_nil (P.token (uuid ++ ".jpg")).toList,
      Uri.escaped_append _ (all_of_unreserved htoken hqchar)]
    rfl
  have hread := Uri.parse_text (r := ⟨some "https".toList,
    some ⟨none, "firebasestorage.googleapis.com".toList, none⟩, _, some _, none⟩)
    ⟨⟨_, rfl, by decide⟩, ⟨_, rfl, rfl, by decide, rfl⟩, hpath, Or.inr ⟨_, rfl⟩, hquery, rfl⟩
  have htext : (P.downloadURL (uuid ++ ".jpg")).toList = Uri.Reference.text ⟨some "https".toList,
      some ⟨none, "firebasestorage.googleapis.com".toList, none⟩,
      "/v0/b/".toList ++ (P.bucket.toList ++ ("/o/media%2F".toList ++
        (uuid.toList ++ ".jpg".toList))),
      some ("alt=media&token=".toList ++ (P.token (uuid ++ ".jpg")).toList), none⟩ := by
    have hhost : "https://firebasestorage.googleapis.com/v0/b/".toList =
        "https".toList ++ (':' :: '/' :: '/' :: ("firebasestorage.googleapis.com".toList ++
          "/v0/b/".toList)) := by decide
    have hquery : "?alt=media&token=".toList = '?' :: "alt=media&token=".toList := by decide
    unfold Platform.downloadURL
    simp only [String.toList_append, hhost, hquery, Uri.Reference.text, Uri.Authority.text,
      Uri.before, Uri.after, Option.map_some, Option.map_none, Option.getD_some, Option.getD_none,
      List.append_assoc, List.cons_append, List.nil_append, List.append_nil]
  rw [urlOf, if_neg (downloadURL_ne P uuid), htext, hread]
  rfl

theorem exec_deletePicture (P : Platform) (name : String) (m : ℤ) (b : Backend) :
    ((Request.deletePicture name).operation.exec P m b).1 =
      b.setMedia (b.media.filter (· ≠ name)) := by
  show ((Operation.deleteObject name).exec P m b).1 = _
  rw [Operation.exec]
  split
  · rfl
  · next h =>
    have hself : b.media.filter (· ≠ name) = b.media := by
      refine List.filter_eq_self.mpr (fun x hx => decide_eq_true ?_)
      rintro rfl
      exact h (List.contains_iff_mem.mpr hx)
    rw [hself]
    rfl

/-- **The old picture is recovered exactly**: the extraction is in range, and the picture that
is deleted is the one that was stored under the URL, and no other. -/
theorem deleteOldPicture_url {P : Platform} {uuid : String} {d : Device}
    (hbucket : hasInfix "media%2F".toList P.bucket.toList = false)
    (huuid : ∀ c ∈ uuid.toList, isUUIDChar c = true)
    (hurl : d.sharedUserInfo.profilePicURL = P.downloadURL (uuid ++ ".jpg")) :
    oldUUID d.sharedUserInfo.profilePicURL = some (uuid ++ ".jpg") ∧
      deleteOldPicture d = (d, [.deletePicture (uuid ++ ".jpg")]) ∧
      ∀ m b, ((Request.deletePicture (uuid ++ ".jpg")).operation.exec P m b).1.media =
        b.media.filter (· ≠ uuid ++ ".jpg") := by
  have hname := oldUUID_url hbucket huuid
  rw [← hurl] at hname
  refine ⟨hname, ?_, fun m b => by rw [exec_deletePicture]; rfl⟩
  rw [deleteOldPicture, if_pos (hurl ▸ downloadURL_ne P uuid), hname]
  rfl

def trickyTokens : Platform := { Platform.sample with token := fun _ => "media%2F?alt" }

def pictured : Device :=
  { Device.launched with
    sharedUserInfo := { UserSingleton.reset with
      profilePicURL := trickyTokens.downloadURL ("0-F" ++ ".jpg") } }

theorem deleteOldPicture_pictured :
    deleteOldPicture pictured = (pictured, [.deletePicture ("0-F" ++ ".jpg")]) :=
  (deleteOldPicture_url (P := trickyTokens) (by decide) (forall_of_all (by decide)) rfl).2.1

end ProfileVC

end SpotiFriend
