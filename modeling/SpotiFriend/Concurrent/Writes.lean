import SpotiFriend.Concurrent.Crashes
import SpotiFriend.Concurrent.Display

/-!
# Whose documents are changed

A document of `userInfo` is never addressed by its user: each change is the end of a chain of
calls that looks for it by an email, and the email is taken from the device, at the click or
in a handler.  `Backed` says of a call that this is where its email and its document come
from.

Main results, for all that the app can do, with any calls failing and in any order:

* `backed_traces`: a move keeps the calls in flight backed;
* `changes_backed`: a document is changed by a device only after it was found under an email
  that the device had;
* `profile_untouched`: a document stays as it is until a device changes it that had its email;
* `account_untouched`: an account stays as it is until a device changes it on which its user was
  signed in.
-/

namespace SpotiFriend

open Async SpotiFriend.Action

/-- The device has the email, of its user or in the shared user information. -/
def Holds (d : Device) (email : String) : Prop :=
  d.sharedUserInfo.email = email ∨ ∃ user, d.currentUser = some user ∧ user.email = email

/-- At some time the device had the email. -/
def Held (h : History) (c : ℕ) (email : String) : Prop := ∃ x ∈ h, Holds (x.1.locals c) email

def Named (h : History) (id : ℕ) (email : String) : Prop :=
  ∃ x ∈ h, ∃ f, x.1.store.doc? .userInfo id = some f ∧ f .email = some (.string email)

/-- The document was found under an email that the device had. -/
def FoundFor (h : History) (c : ℕ) (id : ℕ) : Prop := ∃ email, Held h c email ∧ Named h id email

/-- The email by which the call, or one that it leads to, looks for the user's document. -/
def emailOf : Request → Option String
  | .storeHasFound _ _ _ email => some email
  | .foundUserInfo email => some email
  | .createdUserInfo email _ => some email
  | .updateEmail _ _ _ oldEmail => some oldEmail
  | .emailUserInfo _ oldEmail => some oldEmail
  | .passwordUserInfo _ email => some email
  | .usernameUserInfo _ email => some email
  | .radiusUserInfo _ email => some email
  | .deletedUserInfo email => some email
  | .pictureUserInfo email _ => some email
  | _ => none

/-- The document of `userInfo` that a call writes to or deletes. -/
def Operation.changes : Operation → Option ℕ
  | .setData .userInfo id _ => some id
  | .deleteDocument .userInfo id => some id
  | _ => none

/-- Where the email and the document of a call come from. -/
structure Backed (h : History) (c : ℕ) (r : Request) : Prop where
  playlists : ∀ coll p, r = .checkPlaylists coll p → coll ≠ .userInfo
  email : ∀ u, emailOf r = some u → Held h c u
  document : ∀ id, r.operation.changes = some id → FoundFor h c id

def Rewrites (id : ℕ) (r : Request) : Prop :=
  r.operation.changes = some id ∧ emailOf r = none ∧ ∀ coll p, r ≠ .checkPlaylists coll p

def Seen (h : History) : (o : Operation) → Except String o.Answer → Prop
  | .getDocuments q, .ok docs => ∀ doc ∈ docs, ∃ x ∈ h,
    x.1.store.doc? q.collection doc.id = some doc.data ∧ q.holds doc.data = true
  | _, _ => True

structure JobBacked (h : History) (j : Job) : Prop where
  backed : Backed h j.client j.request
  seen : ∀ a, j.reply = some a → Seen h j.request.operation a

variable {P : Platform} {s s' : State} {ℓ : Label} {ls : List Label} {h h' : History} {c : ℕ}
  {d : Device} {m : ℤ} {r : Request} {u : String} {id : ℕ}

/-! ### The past only grows -/

theorem Held.mono (hsub : h ⊆ h') (hu : Held h c u) : Held h' c u := by
  obtain ⟨x, hx, hholds⟩ := hu
  exact ⟨x, hsub hx, hholds⟩

theorem Named.mono (hsub : h ⊆ h') (hid : Named h id u) : Named h' id u := by
  obtain ⟨x, hx, hf⟩ := hid
  exact ⟨x, hsub hx, hf⟩

theorem Backed.mono (hsub : h ⊆ h') (hr : Backed h c r) : Backed h' c r where
  playlists := hr.playlists
  email u hu := (hr.email u hu).mono hsub
  document id hid := by
    obtain ⟨u, hu, hnamed⟩ := hr.document id hid
    exact ⟨u, hu.mono hsub, hnamed.mono hsub⟩

theorem Seen.mono {o : Operation} {a : Except String o.Answer} (hsub : h ⊆ h') (ha : Seen h o a) :
    Seen h' o a := by
  cases o with
  | getDocuments q =>
    cases a with
    | error err => trivial
    | ok docs =>
      intro doc hdoc
      obtain ⟨x, hx, hf⟩ := ha doc hdoc
      exact ⟨x, hsub hx, hf⟩
  | _ => trivial

theorem JobBacked.mono {j : Job} (hsub : h ⊆ h') (hj : JobBacked h j) : JobBacked h' j :=
  ⟨hj.backed.mono hsub, fun a ha => (hj.seen a ha).mono hsub⟩

/-! ### Events and handlers -/

namespace Backed

theorem plain (hplain : ∀ coll p, r = .checkPlaylists coll p → coll ≠ .userInfo)
    (hemail : emailOf r = none) (hchanges : r.operation.changes = none) : Backed h c r := by
  refine ⟨hplain, fun u hu => ?_, fun id hid => ?_⟩
  · rw [hemail] at hu
    cases hu
  · rw [hchanges] at hid
    cases hid

/-- A call that looks for a document by an email of the device. -/
theorem asks (hplain : ∀ coll p, r ≠ .checkPlaylists coll p) (hheld : Held h c u)
    (hemail : emailOf r = some u) (hchanges : r.operation.changes = none) : Backed h c r := by
  refine ⟨fun coll p hr => absurd hr (hplain coll p), fun u' hu => ?_, fun id hid => ?_⟩
  · obtain rfl := Option.some.inj (hemail.symm.trans hu)
    exact hheld
  · rw [hchanges] at hid
    cases hid

theorem rewrites (hr : Rewrites id r) (hfound : FoundFor h c id) : Backed h c r := by
  obtain ⟨hchanges, hemail, hplain⟩ := hr
  refine ⟨fun coll p hr => absurd hr (hplain coll p), fun u' hu => ?_, fun id' hid => ?_⟩
  · rw [hemail] at hu
    cases hu
  · obtain rfl := Option.some.inj (hchanges.symm.trans hid)
    exact hfound

end Backed

/-- **An event** takes the emails from the device. -/
theorem start_backed {e : Event} (live : d.crashed = false) (hd : ∀ u, Holds d u → Held h c u) :
    ∀ r ∈ (start e d).2, Backed h c r := by
  intro r hr
  have hbegins := start_begins e live r hr
  have huser : ∀ user, d.currentUser = some user → Held h c user.email :=
    fun user huser => hd _ (Or.inr ⟨user, huser, rfl⟩)
  cases e with
  | viewDidLoad map | reloadMapClicked map | didUpdateLocations map =>
    rcases hbegins with rfl | rfl <;> exact .plain (fun _ _ h => by cases h) rfl rfl
  | viewWillAppear =>
    obtain ⟨user, -, rfl⟩ := hbegins
    exact .plain (fun _ _ h => by cases h) rfl rfl
  | viewFor pin p =>
    obtain rfl := hbegins
    exact .plain (fun _ _ h => by cases h) rfl rfl
  | calloutTapped p =>
    rcases hbegins with rfl | rfl
    · exact .plain (fun _ _ h => by cases h; decide) rfl rfl
    · exact .plain (fun _ _ h => by cases h; decide) rfl rfl
  | addPlaylistClicked vc =>
    obtain ⟨-, rfl | rfl⟩ := hbegins
    · exact .plain (fun _ _ h => by cases h) rfl rfl
    · exact .asks (fun _ _ h => by cases h) (hd _ (Or.inl rfl)) rfl rfl
  | signUpClicked vc | logInClicked vc | storeProfilePic uuid =>
    obtain rfl := hbegins
    exact .plain (fun _ _ h => by cases h) rfl rfl
  | updateClicked vc selectedEditID =>
    cases selectedEditID with
    | email =>
      obtain ⟨user, hcurrent, rfl⟩ := hbegins
      exact .asks (fun _ _ h => by cases h) (huser user hcurrent) rfl rfl
    | password =>
      obtain ⟨user, -, rfl⟩ := hbegins
      exact .plain (fun _ _ h => by cases h) rfl rfl
    | username =>
      obtain ⟨user, hcurrent, rfl⟩ := hbegins
      exact .asks (fun _ _ h => by cases h) (huser user hcurrent) rfl rfl
    | unset => cases hbegins
  | updateMapRadiusClicked vc =>
    obtain ⟨user, hcurrent, rfl⟩ := hbegins
    exact .asks (fun _ _ h => by cases h) (huser user hcurrent) rfl rfl
  | deleteAccountClicked =>
    obtain ⟨user, hcurrent, rfl | rfl⟩ := hbegins
    · exact .asks (fun _ _ h => by cases h) (huser user hcurrent) rfl rfl
    · exact .plain (fun _ _ h => by cases h) rfl rfl
  | userLocationChanged | editText | mapLongPressed | logOutClicked => cases hbegins

theorem Seen.named {docs : List Doc} {doc : Doc} (hseen : Seen h (.getDocuments (.userInfo u)) (.ok docs))
    (hdoc : doc ∈ docs) : Named h doc.id u := by
  obtain ⟨x, hx, hf, hq⟩ := hseen doc hdoc
  exact ⟨x, hx, doc.data, hf, Query.holds_userInfo.mp hq⟩

/-- A loop over what was found under the email, with a change of each document. -/
theorem issues_rewrites {reply : Except String (List Doc)} {f : Doc → Action}
    (hseen : Seen h (.getDocuments (.userInfo u)) reply) (hheld : Held h c u)
    (hf : ∀ doc, Issues (fun _ => ()) () (Rewrites doc.id) (f doc)) :
    Issues (fun _ => ()) () (Backed h c) (orAlert reply (forEach f)) := by
  refine Issues.orAlert (fun docs hdocs => Issues.forEach (fun _ _ _ => rfl) (fun doc hdoc => ?_))
  rw [hdocs] at hseen
  intro d hd r hr
  exact .rewrites (hf doc d hd r hr) ⟨u, hheld, hseen.named hdoc⟩

theorem issues_rewritesOnly {reply : Except String (List Doc)} {f : Doc → Action}
    (hseen : Seen h (.getDocuments (.userInfo u)) reply) (hheld : Held h c u)
    (hf : ∀ doc, Issues (fun _ => ()) () (Rewrites doc.id) (f doc)) :
    Issues (fun _ => ()) () (Backed h c) (orAlert reply (EditAccountVC.updateOnly f)) := by
  refine Issues.orAlert (fun docs hdocs => ?_)
  rw [EditAccountVC.updateOnly]
  split
  · exact Issues.skip
  · have hloop := issues_rewrites hseen hheld hf
    rw [hdocs] at hloop
    exact hloop

/-- **A handler** hands the email on, takes one from the device, or changes what was found. -/
theorem resume_backed {a : Except String r.Answer} (hj : JobBacked h ⟨c, r, some a⟩)
    (hd : ∀ u, Holds d u → Held h c u) : ∀ r' ∈ (resume P r m a d).2, Backed h c r' := by
  intro r' hr'
  have hleads := resume_leads P r m a d r' hr'
  have hseen := hj.seen a rfl
  cases r with
  | addUserAnnotations map =>
    obtain ⟨id', rfl⟩ := hleads
    exact .plain (fun _ _ h => by cases h) rfl rfl
  | viewForPlaylist pin p =>
    obtain ⟨email, rfl⟩ := hleads
    exact .plain (fun _ _ h => by cases h) rfl rfl
  | checkPlaylists coll p =>
    cases a with
    | error err => exact absurd hr' List.not_mem_nil
    | ok docs =>
      have hcoll := hj.backed.playlists coll p rfl
      obtain ⟨doc, -, hfound⟩ := List.mem_filterMap.mp
        ((MapVC.checkPlaylists_requests coll docs _).subset hr')
      obtain ⟨l, -, -, rfl⟩ := MapVC.found?_eq_some.mp hfound
      refine .asks (fun _ _ h => by cases h) (hd _ (Or.inl rfl)) rfl ?_
      cases coll with
      | userInfo => exact absurd rfl hcoll
      | masterPlaylists => rfl
      | userPlaylists => rfl
  | storeHasFound coll id l email =>
    obtain rfl : r' = .foundUserInfo email := hleads
    exact .asks (fun _ _ h => by cases h) (hj.backed.email email rfl) rfl rfl
  | foundUserInfo email =>
    exact issues_rewrites hseen (hj.backed.email email rfl)
      (fun doc => Issues.one (fun _ => ⟨rfl, rfl, fun _ _ h => by cases h⟩)) _ rfl r' hr'
  | createdUserInfo email n =>
    cases a with
    | error err => exact absurd hr' List.not_mem_nil
    | ok docs =>
      have hloop := issues_rewrites (c := c) (f := fun doc => issue (.storeCreated doc.id n)) hseen
        (hj.backed.email email rfl) (fun doc => Issues.issue ⟨rfl, rfl, fun _ _ h => by cases h⟩)
      rw [resume, handler, AddPlaylistVC.createdUserInfoReply] at hr'
      split at hr'
      · exact hloop _ rfl r' hr'
      · exact absurd hr' List.not_mem_nil
  | updateEmail vc uid email oldEmail =>
    obtain rfl : r' = .emailUserInfo vc oldEmail := hleads
    exact .asks (fun _ _ h => by cases h) (hj.backed.email oldEmail rfl) rfl rfl
  | emailUserInfo vc oldEmail =>
    exact issues_rewritesOnly hseen (hj.backed.email oldEmail rfl)
      (fun doc => Issues.one (fun _ => ⟨rfl, rfl, fun _ _ h => by cases h⟩)) _ rfl r' hr'
  | updatePassword vc uid password =>
    cases a with
    | error err => exact absurd hr' List.not_mem_nil
    | ok _ =>
      obtain ⟨user, huser, hr'⟩ := withUser_requests (d := d) hr'
      obtain rfl := List.mem_singleton.mp hr'
      exact .asks (fun _ _ h => by cases h) (hd _ (Or.inr ⟨user, huser, rfl⟩)) rfl rfl
  | passwordUserInfo vc email =>
    exact issues_rewritesOnly hseen (hj.backed.email email rfl)
      (fun doc => Issues.one (fun _ => ⟨rfl, rfl, fun _ _ h => by cases h⟩)) _ rfl r' hr'
  | usernameUserInfo vc email =>
    exact issues_rewritesOnly hseen (hj.backed.email email rfl)
      (fun doc => Issues.one (fun _ => ⟨rfl, rfl, fun _ _ h => by cases h⟩)) _ rfl r' hr'
  | createUser vc email password =>
    obtain ⟨_, _, _, rfl⟩ := hleads
    exact .plain (fun _ _ h => by cases h) rfl rfl
  | radiusUserInfo vc email =>
    exact issues_rewritesOnly hseen (hj.backed.email email rfl)
      (fun doc => Issues.one (fun _ => ⟨rfl, rfl, fun _ _ h => by cases h⟩)) _ rfl r' hr'
  | deletedUserInfo email =>
    exact issues_rewrites hseen (hj.backed.email email rfl)
      (fun doc => Issues.issue ⟨rfl, rfl, fun _ _ h => by cases h⟩) _ rfl r' hr'
  | putPicture name =>
    obtain rfl : r' = .pictureURL name := hleads
    exact .plain (fun _ _ h => by cases h) rfl rfl
  | pictureURL name =>
    obtain ⟨imgURL, -, rfl | ⟨old, rfl, -⟩⟩ := pictureURL_requests hr'
    · exact .asks (fun _ _ h => by cases h) (hd _ (Or.inl rfl)) rfl rfl
    · exact .plain (fun _ _ h => by cases h) rfl rfl
  | pictureUserInfo email imgURL =>
    exact issues_rewrites hseen (hj.backed.email email rfl)
      (fun doc => Issues.issue ⟨rfl, rfl, fun _ _ h => by cases h⟩) _ rfl r' hr'
  | _ => cases hleads

/-! ### Runs -/

theorem seen_exec {o : Operation} (hnow : (s, ℓ) ∈ h) : Seen h o (o.exec P m s.store).2 := by
  cases o with
  | getDocuments q =>
    intro doc hdoc
    obtain ⟨hf, hq⟩ := Backend.mem_getDocuments.mp hdoc
    exact ⟨(s, ℓ), hnow, hf, hq⟩
  | _ => trivial

theorem seen_error {o : Operation} {err : String} : Seen h o (.error err) := by
  cases o <;> trivial

/-- **The moves** keep the calls in flight backed. -/
theorem backed_traces : Traces (app P) (fun _ _ _ => True) JobBacked where
  grows _ _ := trivial
  growsJob hsub hj := hj.mono hsub
  start := by
    intro h s c e hmade live _
    refine ⟨trivial, fun r hr => ⟨?_, fun a ha => by cases ha⟩⟩
    exact start_backed (by simpa using live) (fun u hu => ⟨_, hmade, hu⟩) r hr
  exec := by
    intro h s i m c r hmade _ hj
    refine ⟨hj.backed, fun a ha => ?_⟩
    obtain rfl := Option.some.inj ha
    exact seen_exec hmade
  fail := by
    intro h c r err hj
    refine ⟨hj.backed, fun a ha => ?_⟩
    obtain rfl := Option.some.inj ha
    exact seen_error
  resume := by
    intro h s i m c r a hmade _ _ hj
    refine ⟨trivial, fun r' hr' => ⟨?_, fun a ha => by cases ha⟩⟩
    exact resume_backed hj (fun u hu => ⟨_, hmade, hu⟩) r' hr'

/-- **Who changes a document.**  In every run that starts with nothing on its way, a call that
is to change a document of `userInfo` comes from a device that had an email under which the
document was found. -/
theorem changes_backed (quiet : s.jobs = []) (hrun : Run (app P) (fun _ _ => True) s ls s') {j : Job}
    (hj : j ∈ s'.jobs) (hid : j.request.operation.changes = some id) :
    FoundFor (collect (app P) made s ls) j.client id := by
  have hend := backed_traces.run ⟨fun _ => trivial, by rw [quiet]; exact List.forall_mem_nil _⟩ hrun
  exact (hend.2 j hj).backed.document id hid

def bobRenames : List Label :=
  [.event 1 (.editText 0 .desiredTextField "rob"), .event 1 (.updateClicked 0 .username), .effect 0 0,
    .deliver 0 0]

theorem bobRenames_backed : ∃ s', Run (app .sample) (fun _ _ => True) oldPlaylist bobRenames s' ∧
    ∃ c, FoundFor (collect (app .sample) made oldPlaylist bobRenames) c 1 := by
  obtain ⟨s', hrun, hend⟩ := Run.exists_of_run (P := app .sample) (G := fun _ _ => true)
    (s := oldPlaylist) (l := bobRenames)
    (Q := fun s' => s'.jobs.any (fun j => j.request.operation.changes = some 1)) (by decide +kernel)
  have hfree := hrun.mono (H := fun _ _ => True) (fun _ _ _ => trivial)
  obtain ⟨j, hj, hid⟩ := List.any_eq_true.mp hend
  exact ⟨s', hfree, j.client, changes_backed rfl hfree hj (of_decide_eq_true hid)⟩

/-- A call of the device has changed what `change` says that it changes. -/
def ChangedBy {α : Type} (change : Operation → Option α) (h : History) (c : ℕ) (x : α) : Prop :=
  ∃ t i m r, (t, Label.effect i m) ∈ h ∧ t.jobs[i]? = some ⟨c, r, none⟩ ∧ change r.operation = some x

theorem doc?_of_changes {o : Operation} {b : Backend} {f : Fields} (hf : b.doc? .userInfo id = some f)
    (hne : o.changes ≠ some id) : (o.exec P m b).1.doc? .userInfo id = some f := by
  rcases exec_firestore o P m b with ⟨coll, id', data, rfl⟩ | ⟨coll, data, rfl⟩ | ⟨coll, id', rfl⟩ | hsame
  · rw [doc?_setData, if_neg]
    · exact hf
    · rintro ⟨rfl, rfl⟩
      exact hne rfl
  · rw [doc?_addDocument, if_neg]
    · exact hf
    · -- the new ID is no document's
      rintro ⟨rfl, rfl⟩
      rw [Backend.doc?, (b.firestore .userInfo).vacant _ (Nat.le_refl _)] at hf
      cases hf
  · rw [doc?_deleteDocument, if_neg]
    · exact hf
    · rintro ⟨rfl, rfl⟩
      exact hne rfl
  · rw [Backend.doc?, hsame]
    exact hf

/-- **A user's document is the user's.**  In every run that starts with nothing on its way, a
document with the email stays as it is until a device changes it that had this very email. -/
theorem profile_untouched {f : Fields} (quiet : s.jobs = []) (stored : s.store.doc? .userInfo id = some f)
    (hemail : f .email = some (.string u)) (hrun : Run (app P) (fun _ _ => True) s ls s') :
    s'.store.doc? .userInfo id = some f ∨ ∃ c, Held (collect (app P) made s ls) c u ∧
      ChangedBy Operation.changes (collect (app P) made s ls) c id := by
  rcases backed_traces.untouched ⟨fun _ => trivial, by rw [quiet]; exact List.forall_mem_nil _⟩
    (I := fun b => b.doc? .userInfo id = some f) stored hrun with
    hsame | ⟨h, t, i, m, c, r, hsub, hpast, hmade, hjob, hj, htaken⟩
  · exact Or.inl hsame
  · right
    have hid : r.operation.changes = some id := by
      by_contra hne
      exact htaken (doc?_of_changes (hpast _ hmade) hne)
    obtain ⟨u', hheld, x, hx, f', hf', he'⟩ := hj.backed.document id hid
    -- the document has had this email only
    obtain rfl := Option.some.inj ((hpast x hx).symm.trans hf')
    obtain rfl := Value.string.inj (Option.some.inj (hemail.symm.trans he'))
    exact ⟨c, hheld.mono hsub, t, i, m, r, hsub hmade, hjob, hid⟩

/-- Bob's name is changed by a device that had his email. -/
theorem bobRenamed_held : ∃ s', Run (app .sample) (fun _ _ => True) oldPlaylist
      (bobRenames ++ [.effect 0 0]) s' ∧
    ∃ c, Held (collect (app .sample) made oldPlaylist (bobRenames ++ [.effect 0 0])) c "bob@mail.org" := by
  obtain ⟨s', hrun, hend⟩ := Run.exists_of_run (P := app .sample) (G := fun _ _ => true)
    (s := oldPlaylist) (l := bobRenames ++ [.effect 0 0])
    (Q := fun s' => s'.store.field .userInfo 1 .username = some (.string "rob")) (by decide +kernel)
  have hfree := hrun.mono (H := fun _ _ => True) (fun _ _ _ => trivial)
  have stored : oldPlaylist.store.doc? .userInfo 1 =
    some (Dict.fields (Request.userDict "bob" "bob@mail.org" "hidden") 0) := rfl
  refine ⟨s', hfree, ?_⟩
  rcases profile_untouched rfl stored rfl hfree with hsame | ⟨c, hheld, -⟩
  · have hname := of_decide_eq_true hend
    rw [Backend.field, hsame] at hname
    exact absurd hname (by decide)
  · exact ⟨c, hheld⟩

/-! ### Accounts -/

def Operation.changesAccount : Operation → Option ℕ
  | .updateEmail uid _ => some uid
  | .updatePassword uid _ => some uid
  | .deleteUser uid => some uid
  | _ => none

/-- At some time the user was signed in on the device. -/
def SignedIn (h : History) (c uid : ℕ) : Prop :=
  ∃ x ∈ h, ∃ user, (x.1.locals c).currentUser = some user ∧ user.uid = uid

theorem SignedIn.mono {uid : ℕ} (hsub : h ⊆ h') (hc : SignedIn h c uid) : SignedIn h' c uid := by
  obtain ⟨x, hx, huser⟩ := hc
  exact ⟨x, hsub hx, huser⟩

theorem start_changesAccount {e : Event} (live : d.crashed = false) {uid : ℕ} (hr : r ∈ (start e d).2)
    (huid : r.operation.changesAccount = some uid) :
    ∃ user, d.currentUser = some user ∧ user.uid = uid := by
  have hbegins := start_begins e live r hr
  cases e with
  | viewDidLoad map | reloadMapClicked map | didUpdateLocations map | calloutTapped p =>
    rcases hbegins with rfl | rfl <;> cases huid
  | viewWillAppear | updateMapRadiusClicked vc =>
    obtain ⟨user, -, rfl⟩ := hbegins
    cases huid
  | viewFor pin p | signUpClicked vc | logInClicked vc | storeProfilePic uuid =>
    obtain rfl := hbegins
    cases huid
  | addPlaylistClicked vc => obtain ⟨-, rfl | rfl⟩ := hbegins <;> cases huid
  | updateClicked vc selectedEditID =>
    cases selectedEditID with
    | email | password =>
      obtain ⟨user, huser, rfl⟩ := hbegins
      exact ⟨user, huser, Option.some.inj huid⟩
    | username =>
      obtain ⟨user, -, rfl⟩ := hbegins
      cases huid
    | unset => cases hbegins
  | deleteAccountClicked =>
    obtain ⟨user, huser, rfl | rfl⟩ := hbegins
    · cases huid
    · exact ⟨user, huser, Option.some.inj huid⟩
  | userLocationChanged | editText | mapLongPressed | logOutClicked => cases hbegins

theorem resume_changesAccount {a : Except String r.Answer} {r' : Request}
    (hr' : r' ∈ (resume P r m a d).2) : r'.operation.changesAccount = none := by
  have hleads := resume_leads P r m a d r' hr'
  cases r' with
  | updateEmail vc uid email oldEmail => cases r <;> simp_all [Leads]
  | updatePassword vc uid password => cases r <;> simp_all [Leads]
  | deleteUser uid => cases r <;> simp_all [Leads]
  | _ => rfl

theorem account_of_changes {o : Operation} {b : Backend} {uid : ℕ} {a : Credentials}
    (ha : b.accounts.get? uid = some a) (hne : o.changesAccount ≠ some uid) :
    (o.exec P m b).1.accounts.get? uid = some a := by
  cases o with
  | createUser email password =>
    rw [Operation.exec]
    split
    · exact ha
    · refine (b.accounts.get?_add _ uid).trans ?_
      rw [if_neg]
      · exact ha
      · -- the new ID is no account's
        rintro rfl
        rw [b.accounts.vacant _ (Nat.le_refl _)] at ha
        cases ha
  | updateEmail uid' email =>
    have hother : uid ≠ uid' := fun h => hne (congrArg some h.symm)
    simp only [Operation.exec]
    split
    · split
      · exact ha
      · dsimp only [Backend.setAccounts_accounts]
        rw [Store.Collection.get?_upsert, if_neg hother]
        exact ha
    · exact ha
  | updatePassword uid' password =>
    have hother : uid ≠ uid' := fun h => hne (congrArg some h.symm)
    simp only [Operation.exec]
    split
    · dsimp only [Backend.setAccounts_accounts]
      rw [Store.Collection.get?_upsert, if_neg hother]
      exact ha
    · exact ha
  | deleteUser uid' =>
    have hother : uid ≠ uid' := fun h => hne (congrArg some h.symm)
    simp only [Operation.exec]
    split
    · dsimp only [Backend.setAccounts_accounts]
      rw [Store.Collection.get?_delete, if_neg hother]
      exact ha
    · exact ha
  | _ =>
    rw [Operation.exec]
    repeat' split
    all_goals exact ha

/-- **The moves** hand on whose account a call in flight changes. -/
theorem changing_traces : Traces (app P) (fun _ _ _ => True) (fun h j =>
    ∀ uid, j.request.operation.changesAccount = some uid → SignedIn h j.client uid) where
  grows _ _ := trivial
  growsJob hsub hj uid huid := (hj uid huid).mono hsub
  start := by
    intro h s c e hmade live _
    refine ⟨trivial, fun r hr uid huid => ?_⟩
    exact ⟨_, hmade, start_changesAccount (by simpa using live) hr huid⟩
  exec _ _ hj := hj
  fail hj := hj
  resume := by
    intro h s i m c r a _ _ _ _
    refine ⟨trivial, fun r' hr' uid huid => ?_⟩
    rw [Job.issue_request, resume_changesAccount hr'] at huid
    cases huid

/-- **A user's account is the user's.**  In every run that starts with nothing on its way, an
account stays as it is until a device changes it on which its user was signed in. -/
theorem account_untouched {uid : ℕ} {a : Credentials} (quiet : s.jobs = [])
    (there : s.store.accounts.get? uid = some a) (hrun : Run (app P) (fun _ _ => True) s ls s') :
    s'.store.accounts.get? uid = some a ∨ ∃ c, SignedIn (collect (app P) made s ls) c uid ∧
      ChangedBy Operation.changesAccount (collect (app P) made s ls) c uid := by
  rcases changing_traces.untouched ⟨fun _ => trivial, by rw [quiet]; exact List.forall_mem_nil _⟩
    (I := fun b => b.accounts.get? uid = some a) there hrun with
    hsame | ⟨h, t, i, m, c, r, hsub, hpast, hmade, hjob, hj, htaken⟩
  · exact Or.inl hsame
  · right
    have huid : r.operation.changesAccount = some uid := by
      by_contra hne
      exact htaken (account_of_changes (hpast _ hmade) hne)
    exact ⟨c, (hj uid huid).mono hsub, t, i, m, r, hsub hmade, hjob, huid⟩

/-- Ann's password is changed by a device on which she was signed in. -/
theorem passwordChanged_signedIn : ∃ s', Run (app .sample) (fun _ _ => True) oldPlaylist
      (changesPassword false) s' ∧
    ∃ c, SignedIn (collect (app .sample) made oldPlaylist (changesPassword false)) c 0 := by
  obtain ⟨s', hrun, hend⟩ := Run.exists_of_run (P := app .sample) (G := fun _ _ => true)
    (s := oldPlaylist) (l := changesPassword false)
    (Q := fun s' => s'.store.accounts.get? 0 ≠ some ⟨"ann@mail.org", "secret"⟩) (by decide +kernel)
  have hfree := hrun.mono (H := fun _ _ => True) (fun _ _ _ => trivial)
  have there : oldPlaylist.store.accounts.get? 0 = some ⟨"ann@mail.org", "secret"⟩ := rfl
  refine ⟨s', hfree, ?_⟩
  rcases account_untouched rfl there hfree with hsame | ⟨c, hsigned, -⟩
  · exact absurd hsame (of_decide_eq_true hend)
  · exact ⟨c, hsigned⟩

end SpotiFriend
