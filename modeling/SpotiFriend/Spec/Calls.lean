import SpotiFriend.Spec.Actions
import SpotiFriend.Spec.Documents

/-!
# Which calls lead to which

The graph of the calls: `opens` are those that an event makes, and `Leads r r'` says that
the completion handler of `r` may go on with `r'`.  What holds of the first calls, and is
handed on along the graph, holds of every call that the app ever makes.

* `start_begins`: the calls that each event makes; `start_opens`: they are first calls;
* `resume_leads`: a handler follows the graph.
-/

namespace SpotiFriend

open SpotiFriend.Action

def opens : Request → Bool
  | .getUserInfo _ => true
  | .addStaticAnnotations _ => true
  | .addUserAnnotations _ => true
  | .viewForPlaylist _ _ => true
  | .checkPlaylists coll _ => coll ≠ .userInfo
  | .addPlaylist _ _ _ _ _ => true
  | .createdUserInfo _ _ => true
  | .updateEmail _ _ _ _ => true
  | .updatePassword _ _ _ => true
  | .usernameUserInfo _ _ => true
  | .createUser _ _ _ => true
  | .signIn _ _ => true
  | .radiusUserInfo _ _ => true
  | .deletedUserInfo _ => true
  | .deleteUser _ => true
  | .putPicture _ => true
  | _ => false

def Leads : Request → Request → Prop
  | .addUserAnnotations _, r => ∃ id, r = .deleteOldPlaylist id
  | .viewForPlaylist pin _, r => ∃ email, r = .viewForUserInfo pin email
  | .checkPlaylists coll _, r => ∃ id l email, r = .storeHasFound coll id l email
  | .storeHasFound _ _ _ email, r => r = .foundUserInfo email
  | .foundUserInfo _, r => ∃ id n, r = .storeFound id n
  | .createdUserInfo _ n, r => ∃ id, r = .storeCreated id n
  | .updateEmail vc _ _ oldEmail, r => r = .emailUserInfo vc oldEmail
  | .emailUserInfo _ _, r => ∃ id email, r = .storeEmail id email
  | .updatePassword vc _ _, r => ∃ email, r = .passwordUserInfo vc email
  | .passwordUserInfo _ _, r => ∃ id password, r = .storePassword id password
  | .usernameUserInfo vc _, r => ∃ id username, r = .storeUsername vc id username
  | .createUser _ _ _, r => ∃ username email password, r = .addUserInfo username email password
  | .radiusUserInfo vc _, r => ∃ id mapRadius, r = .storeRadius vc id mapRadius
  | .deletedUserInfo _, r => ∃ id, r = .deleteUserInfo id
  | .putPicture name, r => r = .pictureURL name
  | .pictureURL _, r => (∃ name, r = .deletePicture name) ∨ ∃ email imgURL, r = .pictureUserInfo email imgURL
  | .pictureUserInfo _ imgURL, r => ∃ id, r = .storePicture id imgURL
  | _, _ => False

/-! ### Events -/

/-- The calls that an event makes on the device, each where it makes it. -/
def Begins (d : Device) : Event → Request → Prop
  | .viewDidLoad map, r => r = .addStaticAnnotations map ∨ r = .addUserAnnotations map
  | .viewWillAppear, r => ∃ user, d.currentUser = some user ∧ r = .getUserInfo user.email
  | .reloadMapClicked map, r => r = .addStaticAnnotations map ∨ r = .addUserAnnotations map
  | .didUpdateLocations map _, r => r = .addStaticAnnotations map ∨ r = .addUserAnnotations map
  | .viewFor pin p, r => r = .viewForPlaylist pin p
  | .calloutTapped p, r =>
    r = .checkPlaylists .masterPlaylists p ∨ r = .checkPlaylists .userPlaylists p
  | .addPlaylistClicked vc, r => AddPlaylistVC.accepts d vc = true ∧
    (r = .addPlaylist (d.text vc .titleTextField) d.sharedUserInfo.username d.sharedUserInfo.email
        (d.chosen vc) (d.text vc .linkTextField) ∨
      r = .createdUserInfo d.sharedUserInfo.email (d.sharedUserInfo.totalPlaylistsCreated + 1))
  | .signUpClicked vc, r =>
    r = .createUser vc (d.text vc .emailTextField) (d.text vc .passwordTextField)
  | .logInClicked vc, r => r = .signIn (d.text vc .emailTextField) (d.text vc .passwordTextField)
  | .updateClicked vc .email, r => ∃ user, d.currentUser = some user ∧
    r = .updateEmail vc user.uid (d.text vc .desiredTextField) user.email
  | .updateClicked vc .password, r => ∃ user, d.currentUser = some user ∧
    r = .updatePassword vc user.uid (d.text vc .desiredTextField)
  | .updateClicked vc .username, r => ∃ user, d.currentUser = some user ∧
    r = .usernameUserInfo vc user.email
  | .updateMapRadiusClicked vc, r => ∃ user, d.currentUser = some user ∧
    r = .radiusUserInfo vc user.email
  | .deleteAccountClicked, r => ∃ user, d.currentUser = some user ∧
    (r = .deletedUserInfo user.email ∨ r = .deleteUser user.uid)
  | .storeProfilePic uuid, r => r = .putPicture (uuid ++ ".jpg")
  | _, _ => False

theorem withUser_requests {a : User → Action} {d : Device} {r : Request}
    (h : r ∈ (EditAccountVC.withUser a d).2) :
    ∃ user, d.currentUser = some user ∧ r ∈ (a user d).2 := by
  rw [EditAccountVC.withUser] at h
  cases huser : d.currentUser with
  | none =>
    rw [huser] at h
    exact absurd h List.not_mem_nil
  | some user =>
    rw [huser] at h
    exact ⟨user, rfl, h⟩

/-- **What an event makes**, one by one. -/
theorem start_begins (e : Event) {d : Device} (live : d.crashed = false) :
    ∀ r ∈ (start e d).2, Begins d e r := by
  have hpins : ∀ {d : Device} map, d.crashed = false → ∀ r ∈ (andThen (MapVC.addStaticAnnotations map)
      (MapVC.addUserAnnotations map) d).2, r = .addStaticAnnotations map ∨ r = .addUserAnnotations map := by
    intro d map hd r hr
    rw [MapVC.addStaticAnnotations, andThen_issue _ hd] at hr
    exact List.mem_pair.mp hr
  have hupdate : ∀ {d : Device} map, d.crashed = false → ∀ r ∈ (MapVC.updateAnnotations map d).2,
      r = .addStaticAnnotations map ∨ r = .addUserAnnotations map := by
    intro d map hd r hr
    rw [MapVC.updateAnnotations, andThen_of_live (by exact hd)] at hr
    exact hpins map (by exact hd) r hr
  intro r hr
  cases e with
  | viewDidLoad map => exact hpins map live r hr
  | viewWillAppear =>
    rw [start, MapVC.viewWillAppear_apply live] at hr
    obtain ⟨user, huser, rfl⟩ := Option.map_eq_some_iff.mp (Option.mem_toList.mp hr)
    exact ⟨user, huser, rfl⟩
  | reloadMapClicked map => exact hupdate map live r hr
  | didUpdateLocations map locations =>
    cases locations with
    | nil => exact absurd hr List.not_mem_nil
    | cons latestLoc _ =>
      rw [start, MapVC.didUpdateLocations, MapVC.zoomToLatestLoc, andThen] at hr
      split at hr
      · exact hupdate map live r hr
      · exact hupdate map live r (by simpa using hr)
  | userLocationChanged location => exact absurd hr List.not_mem_nil
  | viewFor pin p => exact List.mem_singleton.mp hr
  | calloutTapped p =>
    rw [start, MapVC.calloutTapped_apply live] at hr
    exact List.mem_pair.mp hr
  | editText vc field text => exact absurd hr List.not_mem_nil
  | mapLongPressed vc coords =>
    rw [start, AddPlaylistVC.mapLongPressed, andThen_of_live (by exact live)] at hr
    exact absurd hr List.not_mem_nil
  | addPlaylistClicked vc =>
    rw [start] at hr
    by_cases haccepted : AddPlaylistVC.accepts d vc = true
    · rw [AddPlaylistVC.addPlaylistClicked_accepted live haccepted] at hr
      exact ⟨haccepted, List.mem_pair.mp hr⟩
    · obtain ⟨l, hrejected⟩ :=
        AddPlaylistVC.addPlaylistClicked_rejected (Bool.eq_false_iff.mpr haccepted)
      rw [hrejected] at hr
      exact absurd hr List.not_mem_nil
  | signUpClicked vc =>
    rw [start, SignUpVC.signUpClicked] at hr
    split at hr
    · exact List.mem_singleton.mp hr
    · exact absurd hr List.not_mem_nil
  | logInClicked vc =>
    rw [start, LogInVC.logInClicked] at hr
    split at hr
    · exact List.mem_singleton.mp hr
    · exact absurd hr List.not_mem_nil
  | logOutClicked signOut =>
    cases signOut with
    | true => exact absurd hr List.not_mem_nil
    | false => exact absurd hr List.not_mem_nil
  | updateClicked vc selectedEditID =>
    cases selectedEditID with
    | email =>
      obtain ⟨user, huser, hr⟩ := withUser_requests hr
      dsimp only at hr
      split at hr
      · exact ⟨user, huser, List.mem_singleton.mp hr⟩
      · exact absurd hr List.not_mem_nil
    | password =>
      simp only [start, EditAccountVC.updateClicked] at hr
      split at hr
      · split at hr
        · next user huser => exact ⟨user, huser, List.mem_singleton.mp hr⟩
        · exact absurd hr List.not_mem_nil
      · exact absurd hr List.not_mem_nil
    | username =>
      obtain ⟨user, huser, hr⟩ := withUser_requests hr
      exact ⟨user, huser, List.mem_singleton.mp hr⟩
    | unset => exact absurd hr List.not_mem_nil
  | updateMapRadiusClicked vc =>
    obtain ⟨user, huser, hr⟩ := withUser_requests hr
    exact ⟨user, huser, List.mem_singleton.mp hr⟩
  | deleteAccountClicked =>
    obtain ⟨user, huser, hr⟩ := withUser_requests hr
    rw [andThen_issue _ live] at hr
    exact ⟨user, huser, List.mem_pair.mp hr⟩
  | storeProfilePic uuid => exact List.mem_singleton.mp hr

/-- **An event makes only first calls.** -/
theorem start_opens (e : Event) {d : Device} (live : d.crashed = false) :
    ∀ r ∈ (start e d).2, opens r = true := by
  intro r hr
  have hbegins := start_begins e live r hr
  cases e with
  | viewDidLoad map => rcases hbegins with rfl | rfl <;> rfl
  | viewWillAppear =>
    obtain ⟨user, -, rfl⟩ := hbegins
    rfl
  | reloadMapClicked map => rcases hbegins with rfl | rfl <;> rfl
  | didUpdateLocations map locations => rcases hbegins with rfl | rfl <;> rfl
  | calloutTapped p => rcases hbegins with rfl | rfl <;> rfl
  | addPlaylistClicked vc => rcases hbegins with ⟨-, rfl | rfl⟩ <;> rfl
  | updateClicked vc selectedEditID =>
    cases selectedEditID with
    | unset => cases hbegins
    | _ =>
      obtain ⟨user, -, rfl⟩ := hbegins
      rfl
  | updateMapRadiusClicked vc =>
    obtain ⟨user, -, rfl⟩ := hbegins
    rfl
  | deleteAccountClicked => obtain ⟨user, -, rfl | rfl⟩ := hbegins <;> rfl
  | viewFor | signUpClicked | logInClicked | storeProfilePic =>
    obtain rfl := hbegins
    rfl
  | userLocationChanged | editText | mapLongPressed | logOutClicked => cases hbegins

/-! ### Handlers -/

section

variable {Q : Request → Prop} {α : Type}

theorem Issues.none {reply : Except String α} {f : α → Action} (h : ∀ x d, (f x d).2 = []) :
    Issues (fun _ => ()) () Q (Action.orAlert reply f) := by
  refine Issues.orAlert (fun x _ d _ r hr => ?_)
  rw [h] at hr
  exact absurd hr List.not_mem_nil

theorem Issues.loop {reply : Except String (List α)} {f : α → Action}
    (h : ∀ x, Issues (fun _ => ()) () Q (f x)) :
    Issues (fun _ => ()) () Q (Action.orAlert reply (Action.forEach f)) :=
  Issues.orAlert (fun _ _ => Issues.forEach (fun _ _ _ => rfl) (fun x _ => h x))

theorem Issues.updateOnly {reply : Except String (List Doc)} {f : Doc → Action}
    (h : ∀ x, Issues (fun _ => ()) () Q (f x)) :
    Issues (fun _ => ()) () Q (Action.orAlert reply (EditAccountVC.updateOnly f)) := by
  refine Issues.orAlert (fun docs _ => ?_)
  rw [EditAccountVC.updateOnly]
  split
  · exact Issues.skip
  · exact Issues.forEach (fun _ _ _ => rfl) (fun x _ => h x)

end

theorem Issues.one {Q : Request → Prop} {r : Device → Request} (h : ∀ d, Q (r d)) :
    Issues (fun _ => ()) () Q (fun d => Action.issue (r d) d) := by
  intro d _ r' hr'
  rw [List.mem_singleton.mp hr']
  exact h d

/-- **A handler follows the graph.** -/
theorem resume_leads (P : Platform) (r : Request) (m : ℤ) (reply : Except String r.Answer)
    (d : Device) : ∀ r' ∈ (resume P r m reply d).2, Leads r r' := by
  suffices h : Issues (fun _ => ()) () (Leads r) (handler P m r reply) from h _ rfl
  cases r with
  | getUserInfo email => exact Issues.none (fun _ _ => rfl)
  | addStaticAnnotations map =>
    refine Issues.loop (fun doc => ?_)
    split
    · exact Issues.modify
    · exact Issues.skip
  | addUserAnnotations map =>
    refine Issues.loop (fun doc => ?_)
    rw [MapVC.addUserAnnotation]
    split
    · split
      · exact Issues.issue ⟨doc.id, rfl⟩
      · split
        · intro d _ r' hr'
          dsimp only at hr'
          split at hr'
          · split at hr'
            · exact absurd hr' List.not_mem_nil
            · exact absurd hr' List.not_mem_nil
          · exact absurd hr' List.not_mem_nil
        · exact Issues.skip
    · exact Issues.skip
  | deleteOldPlaylist id => exact Issues.none (fun _ _ => rfl)
  | viewForPlaylist pin p =>
    refine Issues.loop (fun doc => ?_)
    split
    · next email _ => exact Issues.issue ⟨email, rfl⟩
    · exact Issues.skip
  | viewForUserInfo pin email =>
    intro d _ r' hr'
    rw [handler, MapVC.viewForUserInfo_requests] at hr'
    exact absurd hr' List.not_mem_nil
  | checkPlaylists coll p =>
    refine Issues.loop (fun doc => Issues.andThen (fun _ => rfl) (fun d _ r' hr' => ?_)
      (fun d _ r' hr' => ?_))
    · rw [MapVC.markFound] at hr'
      split at hr'
      · split at hr'
        · exact absurd hr' List.not_mem_nil
        · exact ⟨_, _, _, List.mem_singleton.mp hr'⟩
      · exact absurd hr' List.not_mem_nil
    · rw [MapVC.openLink_requests] at hr'
      exact absurd hr' List.not_mem_nil
  | storeHasFound coll id l email => exact Issues.orAlert (fun _ _ => Issues.issue rfl)
  | foundUserInfo email => exact Issues.loop (fun doc => Issues.one (fun _ => ⟨_, _, rfl⟩))
  | storeFound id n => exact Issues.none (fun _ _ => rfl)
  | addPlaylist title author email p link =>
    cases reply with
    | ok _ => exact Issues.skip
    | error _ => exact Issues.modify
  | createdUserInfo email n =>
    cases reply with
    | ok docs =>
      show Issues _ _ _ (AddPlaylistVC.createdUserInfoReply n (.ok docs))
      rw [AddPlaylistVC.createdUserInfoReply]
      split
      · exact Issues.forEach (fun _ _ _ => rfl) (fun doc _ => Issues.issue ⟨doc.id, rfl⟩)
      · exact Issues.skip
    | error _ => exact Issues.skip
  | storeCreated id n => exact Issues.none (fun _ _ => rfl)
  | updateEmail vc uid email oldEmail =>
    exact Issues.orAlert (fun _ _ => Issues.andThen (fun _ => rfl) (Issues.issue rfl)
      (fun d _ r' hr' => absurd hr' List.not_mem_nil))
  | emailUserInfo vc oldEmail => exact Issues.updateOnly (fun doc => Issues.one (fun _ => ⟨_, _, rfl⟩))
  | storeEmail id email => exact Issues.none (fun _ _ => rfl)
  | updatePassword vc uid password =>
    refine Issues.orAlert (fun _ _ d _ r' hr' => ?_)
    rw [EditAccountVC.withUser] at hr'
    split at hr'
    · exact ⟨_, List.mem_singleton.mp hr'⟩
    · exact absurd hr' List.not_mem_nil
  | passwordUserInfo vc email =>
    exact Issues.updateOnly (fun doc => Issues.one (fun _ => ⟨_, _, rfl⟩))
  | storePassword id password => exact Issues.none (fun _ _ => rfl)
  | usernameUserInfo vc email =>
    exact Issues.updateOnly (fun doc => Issues.one (fun _ => ⟨_, _, rfl⟩))
  | storeUsername vc id username => exact Issues.none (fun _ _ => rfl)
  | createUser vc email password =>
    exact Issues.orAlert (fun _ _ => Issues.one (fun _ => ⟨_, _, _, rfl⟩))
  | addUserInfo username email password => exact Issues.none (fun _ _ => rfl)
  | signIn email password => exact Issues.none (fun _ _ => rfl)
  | radiusUserInfo vc email => exact Issues.updateOnly (fun doc => Issues.one (fun _ => ⟨_, _, rfl⟩))
  | storeRadius vc id mapRadius => exact Issues.none (fun _ _ => rfl)
  | deletedUserInfo email => exact Issues.loop (fun doc => Issues.issue ⟨doc.id, rfl⟩)
  | deleteUserInfo id =>
    cases reply with
    | ok _ => exact Issues.skip
    | error _ => exact Issues.modify
  | deleteUser uid => exact Issues.none (fun _ _ => rfl)
  | putPicture name => exact Issues.orAlert (fun _ _ => Issues.issue rfl)
  | pictureURL name =>
    cases reply with
    | ok imgURL =>
      refine Issues.andThen (fun _ => rfl) (fun d _ r' hr' => ?_)
        (Issues.one (fun _ => Or.inr ⟨_, _, rfl⟩))
      rw [ProfileVC.deleteOldPicture] at hr'
      split at hr'
      · split at hr'
        · exact Or.inl ⟨_, List.mem_singleton.mp hr'⟩
        · exact absurd hr' List.not_mem_nil
      · exact absurd hr' List.not_mem_nil
    | error _ => exact Issues.skip
  | deletePicture name => exact Issues.none (fun _ _ => rfl)
  | pictureUserInfo email imgURL => exact Issues.loop (fun doc => Issues.issue ⟨doc.id, rfl⟩)
  | storePicture id imgURL => exact Issues.none (fun _ _ => rfl)

/-- The old picture is deleted under the name that its URL has, and the new one goes to the
documents with the email of the singleton. -/
theorem pictureURL_requests {P : Platform} {name : String} {m : ℤ} {reply : Except String String}
    {d : Device} {r : Request} (hr : r ∈ (resume P (.pictureURL name) m reply d).2) :
    ∃ imgURL, reply = .ok imgURL ∧ (r = .pictureUserInfo d.sharedUserInfo.email imgURL ∨
      ∃ old, r = .deletePicture old ∧ d.sharedUserInfo.profilePicURL ≠ "" ∧
        ProfileVC.oldUUID d.sharedUserInfo.profilePicURL = some old) := by
  cases reply with
  | error err => exact absurd hr List.not_mem_nil
  | ok imgURL =>
    refine ⟨imgURL, rfl, ?_⟩
    have hemail : Keeps (fun d => d.sharedUserInfo) ProfileVC.deleteOldPicture := by
      intro d
      rw [ProfileVC.deleteOldPicture]
      split
      · split <;> rfl
      · rfl
    have hissues : Issues (fun d => d.sharedUserInfo) d.sharedUserInfo (fun r =>
        r = .pictureUserInfo d.sharedUserInfo.email imgURL ∨
          ∃ old, r = .deletePicture old ∧ d.sharedUserInfo.profilePicURL ≠ "" ∧
            ProfileVC.oldUUID d.sharedUserInfo.profilePicURL = some old)
        (ProfileVC.pictureURLReply (.ok imgURL)) := by
      refine Issues.andThen hemail (fun d' hd' r hr => ?_) (fun d' hd' r hr => ?_)
      · rw [ProfileVC.deleteOldPicture, hd'] at hr
        split at hr
        · next hurl =>
          split at hr
          · next old hold => exact Or.inr ⟨old, List.mem_singleton.mp hr, hurl, hold⟩
          · exact absurd hr List.not_mem_nil
        · exact absurd hr List.not_mem_nil
      · rw [List.mem_singleton.mp hr, hd']
        exact Or.inl rfl
    exact hissues _ rfl r hr

/-! ### What calls write -/

/-- A write goes to the list of those who have found a playlist, or to `userInfo`. -/
theorem setData_cases {r : Request} {coll : CollectionName} {id : ℕ} {data : Dict}
    (h : r.operation = .setData coll id data) :
    (∃ l email, r = .storeHasFound coll id l email ∧ data = [(.hasFound, .value (.strings l))]) ∨
      coll = .userInfo ∧ ∀ m, data.fields m .hasFound = none := by
  cases r with
  | storeHasFound coll' id' l email =>
    cases h
    exact Or.inl ⟨l, email, rfl, rfl⟩
  | _ => cases h <;> exact Or.inr ⟨rfl, fun m => by simp⟩

/-- A document is added by a new playlist or by a new user. -/
theorem addDocument_cases {r : Request} {coll : CollectionName} {data : Dict}
    (h : r.operation = .addDocument coll data) :
    (∃ title author email p link, r = .addPlaylist title author email p link ∧
      coll = .userPlaylists ∧ data = Request.playlistDict title author email p link) ∨
      coll = .userInfo ∧ ∀ m, data.fields m .hasFound = none := by
  cases r with
  | addPlaylist title author email p link =>
    cases h
    exact Or.inl ⟨title, author, email, p, link, rfl, rfl, rfl⟩
  | addUserInfo username email password =>
    cases h
    exact Or.inr ⟨rfl, fun m => by simp [Request.userDict]⟩
  | _ => cases h

/-- **What a call makes of a list**: it stays, it is empty, or it is the one that is written. -/
theorem hasFound_exec (P : Platform) (r : Request) (m : ℤ) (b : Backend) (coll : CollectionName)
    (id : ℕ) : (r.operation.exec P m b).1.hasFound coll id = b.hasFound coll id ∨
      (r.operation.exec P m b).1.hasFound coll id = [] ∨
      ∃ l email, r = .storeHasFound coll id l email ∧
        (r.operation.exec P m b).1.hasFound coll id = l := by
  rcases exec_firestore r.operation P m b with
    ⟨coll', id', data, ho⟩ | ⟨coll', data, ho⟩ | ⟨coll', id', ho⟩ | hsame
  · rcases setData_cases ho with ⟨l, email, rfl, -⟩ | ⟨-, habsent⟩
    · rw [hasFound_storeHasFound]
      split
      · next hand =>
        obtain ⟨rfl, rfl⟩ := hand
        exact Or.inr (Or.inr ⟨l, email, rfl, rfl⟩)
      · exact Or.inl rfl
    · rw [ho]
      exact Or.inl (hasFound_setData_of_absent (habsent m))
  · rw [ho, Backend.hasFound, field_addDocument]
    split
    · refine Or.inr (Or.inl ?_)
      rcases addDocument_cases ho with ⟨title, author, email, p, link, -, -, rfl⟩ | ⟨-, habsent⟩
      · simp [Request.playlistDict, Entry.resolve]
      · rw [habsent]
        rfl
    · exact Or.inl rfl
  · rw [ho, Backend.hasFound, Backend.field, doc?_deleteDocument]
    split
    · exact Or.inr (Or.inl rfl)
    · exact Or.inl rfl
  · refine Or.inl ?_
    rw [Backend.hasFound, Backend.field, Backend.doc?, hsame]
    rfl

end SpotiFriend
