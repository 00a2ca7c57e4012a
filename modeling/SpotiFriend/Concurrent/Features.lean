import SpotiFriend.Async.Jobs
import SpotiFriend.Async.Run
import SpotiFriend.Concurrent.Deletion
import SpotiFriend.Concurrent.Expiry

/-!
# What each feature may change

Every call belongs to one feature of the app, and its handler goes on within the feature.  A
feature writes few fields: a tap writes two, each form one.  So whatever the other features do,
in any order and with any calls failing, a field stays as it is.

Main results, for all that the app can do:

* `field_kept`: a field of a document is as it was when no feature ran that writes the field
  or deletes from the collection;
* `accounts_kept`: the accounts are as they were when no feature ran that is about them.
-/

namespace SpotiFriend

open Async

inductive Feature
  | profile
  | reload
  | view
  | tap
  | create
  | email
  | password
  | username
  | signUp
  | logIn
  | radius
  | deletion
  | picture
  deriving DecidableEq

def Request.feature : Request → Feature
  | .getUserInfo _ => .profile
  | .addStaticAnnotations _ => .reload
  | .addUserAnnotations _ => .reload
  | .deleteOldPlaylist _ => .reload
  | .viewForPlaylist _ _ => .view
  | .viewForUserInfo _ _ => .view
  | .checkPlaylists _ _ => .tap
  | .storeHasFound _ _ _ _ => .tap
  | .foundUserInfo _ => .tap
  | .storeFound _ _ => .tap
  | .addPlaylist _ _ _ _ _ => .create
  | .createdUserInfo _ _ => .create
  | .storeCreated _ _ => .create
  | .updateEmail _ _ _ _ => .email
  | .emailUserInfo _ _ => .email
  | .storeEmail _ _ => .email
  | .updatePassword _ _ _ => .password
  | .passwordUserInfo _ _ => .password
  | .storePassword _ _ => .password
  | .usernameUserInfo _ _ => .username
  | .storeUsername _ _ _ => .username
  | .createUser _ _ _ => .signUp
  | .addUserInfo _ _ _ => .signUp
  | .signIn _ _ => .logIn
  | .radiusUserInfo _ _ => .radius
  | .storeRadius _ _ _ => .radius
  | .deletedUserInfo _ => .deletion
  | .deleteUserInfo _ => .deletion
  | .deleteUser _ => .deletion
  | .putPicture _ => .picture
  | .pictureURL _ => .picture
  | .deletePicture _ => .picture
  | .pictureUserInfo _ _ => .picture
  | .storePicture _ _ => .picture

def Event.feature : Event → Option Feature
  | .viewDidLoad _ => some .reload
  | .viewWillAppear => some .profile
  | .reloadMapClicked _ => some .reload
  | .didUpdateLocations _ _ => some .reload
  | .userLocationChanged _ => none
  | .viewFor _ _ => some .view
  | .calloutTapped _ => some .tap
  | .editText _ _ _ => none
  | .mapLongPressed _ _ => none
  | .addPlaylistClicked _ => some .create
  | .signUpClicked _ => some .signUp
  | .logInClicked _ => some .logIn
  | .logOutClicked _ => none
  | .updateClicked _ .email => some .email
  | .updateClicked _ .password => some .password
  | .updateClicked _ .username => some .username
  | .updateClicked _ .unset => none
  | .updateMapRadiusClicked _ => some .radius
  | .deleteAccountClicked => some .deletion
  | .storeProfilePic _ => some .picture

namespace Feature

def writes : Feature → Field → Bool
  | .tap, .hasFound => true
  | .tap, .totalPlaylistsFound => true
  | .create, .totalPlaylistsCreated => true
  | .email, .email => true
  | .password, .password => true
  | .username, .username => true
  | .radius, .mapRadius => true
  | .picture, .profilePicURL => true
  | _, _ => false

def deletesFrom : Feature → CollectionName → Bool
  | .reload, .userPlaylists => true
  | .deletion, .userInfo => true
  | _, _ => false

/-- The feature leaves the field of all documents that are there. -/
def spares (coll : CollectionName) (k : Field) (F : Feature) : Bool :=
  !F.writes k && !F.deletesFrom coll

def aboutAccounts : Feature → Bool
  | .email => true
  | .password => true
  | .signUp => true
  | .deletion => true
  | _ => false

end Feature

variable {P : Platform} {s s' : State} {ℓ : Label} {ls : List Label} {coll : CollectionName} {id : ℕ}
  {k : Field} {Q : Feature → Bool}

/-! ### Calls and features -/

theorem Leads.feature_eq {r r' : Request} (h : Leads r r') : r'.feature = r.feature := by
  cases r with
  | addUserAnnotations | deletedUserInfo | createdUserInfo | pictureUserInfo | viewForPlaylist |
      updatePassword =>
    obtain ⟨_, rfl⟩ := h
    rfl
  | checkPlaylists | createUser =>
    obtain ⟨_, _, _, rfl⟩ := h
    rfl
  | foundUserInfo | emailUserInfo | passwordUserInfo | usernameUserInfo | radiusUserInfo =>
    obtain ⟨_, _, rfl⟩ := h
    rfl
  | storeHasFound | updateEmail | putPicture =>
    obtain rfl := h
    rfl
  | pictureURL name =>
    rcases h with ⟨_, rfl⟩ | ⟨_, _, rfl⟩
    · rfl
    · rfl
  | _ => cases h

theorem Begins.feature_eq {d : Device} {e : Event} {r : Request} (h : Begins d e r) :
    e.feature = some r.feature := by
  cases e with
  | viewDidLoad | reloadMapClicked | didUpdateLocations | calloutTapped => rcases h with rfl | rfl <;> rfl
  | viewWillAppear | updateMapRadiusClicked =>
    obtain ⟨_, -, rfl⟩ := h
    rfl
  | addPlaylistClicked vc => rcases h with ⟨-, rfl | rfl⟩ <;> rfl
  | updateClicked vc selectedEditID =>
    cases selectedEditID with
    | unset => cases h
    | _ =>
      obtain ⟨_, -, rfl⟩ := h
      rfl
  | deleteAccountClicked => obtain ⟨_, -, rfl | rfl⟩ := h <;> rfl
  | viewFor | signUpClicked | logInClicked | storeProfilePic =>
    obtain rfl := h
    rfl
  | userLocationChanged | editText | mapLongPressed | logOutClicked => cases h

/-- The event starts only features that are allowed. -/
def startsOnly (Q : Feature → Bool) : Label → Bool
  | .event _ e => e.feature.all Q
  | _ => true

/-- **The features of the calls in flight** stay among those that are allowed. -/
theorem step_features (h : ∀ j ∈ s.jobs, Q j.request.feature = true) (guard : startsOnly Q ℓ = true)
    (move : Step (app P) s ℓ s') : ∀ j ∈ s'.jobs, Q j.request.feature = true := by
  refine move.requests (Q := fun _ r => Q r.feature = true) h ?_ ?_
  · rintro c e rfl live r hr
    have hfeature := (start_begins e (by simpa using live) r hr).feature_eq
    rw [startsOnly, hfeature, Option.all_some] at guard
    exact guard
  · intro js₁ j js₂ m a _ split _ _ r hr
    rw [(resume_leads P j.request m a _ r hr).feature_eq]
    exact h j (mem_of_split split)

/-! ### Fields -/

theorem setData_writes {r : Request} {data : Dict} (h : r.operation = .setData coll id data) (m : ℤ)
    (hk : r.feature.writes k = false) : data.fields m k = none := by
  cases r with
  | storeHasFound | storeFound | storeCreated | storeEmail | storePassword | storeUsername | storeRadius |
      storePicture =>
    cases h
    rw [Dict.fields_cons, Dict.fields_nil, if_neg]
    rintro rfl
    cases hk
  | _ => cases h

theorem deleteDocument_deletesFrom {r : Request} (h : r.operation = .deleteDocument coll id) :
    r.feature.deletesFrom coll = true := by
  cases r with
  | deleteOldPlaylist | deleteUserInfo =>
    cases h
    rfl
  | _ => cases h

theorem exec_spares {r : Request} (m : ℤ) {b : Backend} (h : r.feature.spares coll k = true)
    (there : (b.doc? coll id).isSome = true) :
    ((r.operation.exec P m b).1.doc? coll id).isSome = true ∧
      (r.operation.exec P m b).1.field coll id k = b.field coll id k := by
  rw [Feature.spares, Bool.and_eq_true, Bool.not_eq_true', Bool.not_eq_true'] at h
  refine ⟨isSome_exec _ m there (fun ho => ?_), ?_⟩
  · rw [deleteDocument_deletesFrom ho] at h
    cases h.2
  · rcases exec_firestore r.operation P m b with
      ⟨coll', id', data, ho⟩ | ⟨coll', data, ho⟩ | ⟨coll', id', ho⟩ | hsame
    · rw [ho]
      exact field_setData_of_absent (setData_writes ho m h.1)
    · rw [ho, field_addDocument, if_neg]
      rintro ⟨rfl, rfl⟩
      obtain ⟨f, hf⟩ := Option.isSome_iff_exists.mp there
      exact Nat.lt_irrefl _ (Store.Collection.lt_next hf)
    · rw [ho, Backend.field, doc?_deleteDocument, if_neg]
      · rfl
      · rintro ⟨rfl, rfl⟩
        rw [deleteDocument_deletesFrom ho] at h
        cases h.2
    · rw [Backend.field, Backend.doc?, hsame]
      rfl

/-- **A field stays** in every run of the features that neither write it nor delete from its
collection, whatever they do and whichever of their calls fail. -/
theorem field_kept (there : (s.store.doc? coll id).isSome = true)
    (hjobs : ∀ j ∈ s.jobs, j.request.feature.spares coll k = true)
    (hrun : Run (app P) (fun _ ℓ => startsOnly (Feature.spares coll k) ℓ = true) s ls s') :
    (s'.store.doc? coll id).isSome = true ∧
      s'.store.field coll id k = s.store.field coll id k := by
  have hend := hrun.invariant (I := fun t => (∀ j ∈ t.jobs, j.request.feature.spares coll k = true) ∧
    (t.store.doc? coll id).isSome = true ∧ t.store.field coll id k = s.store.field coll id k)
    (fun t ℓ t' ih guard move => by
      obtain ⟨hfeatures, hthere, hfield⟩ := ih
      refine ⟨step_features hfeatures guard move, ?_⟩
      cases move with
      | @effect js₁ js₂ j m split waiting =>
        obtain ⟨hthere', hfield'⟩ :=
          exec_spares (P := P) m (hfeatures j (mem_of_split split)) hthere
        exact ⟨hthere', hfield'.trans hfield⟩
      | event | fail | deliver => exact ⟨hthere, hfield⟩) ⟨hjobs, there, rfl⟩
  exact hend.2

def tapAndPicture : List Label :=
  annTapsPin true ++ [.event 1 (.storeProfilePic "0-F"), .effect 2 0, .deliver 2 0, .effect 2 0,
    .deliver 2 0, .effect 2 0, .deliver 2 0, .effect 2 0]

/-- Bob's password is still what it was. -/
theorem tapAndPicture_password : ∃ s', Run (app .sample)
      (fun _ ℓ => startsOnly (Feature.spares .userInfo .password) ℓ = true) oldPlaylist tapAndPicture s' ∧
    s'.store.field .userInfo 1 .password = some (.string "hidden") := by
  obtain ⟨s', hrun, -⟩ := Run.exists_of_run (P := app .sample)
    (G := fun _ => startsOnly (Feature.spares .userInfo .password)) (s := oldPlaylist)
    (l := tapAndPicture) (Q := fun _ => true) (by decide +kernel)
  exact ⟨s', hrun, (field_kept rfl (List.forall_mem_nil _) hrun).2⟩

/-! ### Accounts -/

theorem exec_accounts {r : Request} (m : ℤ) (b : Backend) (h : r.feature.aboutAccounts = false) :
    (r.operation.exec P m b).1.accounts = b.accounts := by
  cases r with
  | createUser | updateEmail | updatePassword | deleteUser => cases h
  | _ =>
    rw [Operation.exec]
    repeat' split
    all_goals rfl

/-- **The accounts stay** in every run without sign-ups, changes of an email or a password and
deletions of accounts. -/
theorem accounts_kept (hjobs : ∀ j ∈ s.jobs, j.request.feature.aboutAccounts = false)
    (hrun : Run (app P) (fun _ ℓ => startsOnly (fun F => !F.aboutAccounts) ℓ = true) s ls s') :
    s'.store.accounts = s.store.accounts := by
  have hend := hrun.invariant (I := fun t =>
    (∀ j ∈ t.jobs, (!j.request.feature.aboutAccounts) = true) ∧ t.store.accounts = s.store.accounts)
    (fun t ℓ t' ih guard move => by
      obtain ⟨hfeatures, haccounts⟩ := ih
      refine ⟨step_features (Q := fun F => !F.aboutAccounts) hfeatures guard move, ?_⟩
      cases move with
      | @effect js₁ js₂ j m split waiting =>
        have hj := hfeatures j (mem_of_split split)
        rw [Bool.not_eq_true'] at hj
        exact (exec_accounts (P := P) m t.store hj).trans haccounts
      | event | fail | deliver => exact haccounts)
    ⟨fun j hj => by rw [hjobs j hj]; rfl, rfl⟩
  exact hend.2

theorem tapAndPicture_accounts : ∃ s', Run (app .sample)
      (fun _ ℓ => startsOnly (fun F => !F.aboutAccounts) ℓ = true) oldPlaylist tapAndPicture s' ∧
    s'.store.accounts = oldPlaylist.store.accounts := by
  obtain ⟨s', hrun, -⟩ := Run.exists_of_run (P := app .sample)
    (G := fun _ => startsOnly (fun F => !F.aboutAccounts)) (s := oldPlaylist)
    (l := tapAndPicture) (Q := fun _ => true) (by decide +kernel)
  exact ⟨s', hrun, accounts_kept (List.forall_mem_nil _) hrun⟩

end SpotiFriend
