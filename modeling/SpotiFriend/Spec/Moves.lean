import SpotiFriend.Spec.Calls

/-!
# What a move does to its device

`after` is what an event makes of the device, and `replied` what the handler of a call does
when it does not go over documents to show them.  The texts of alerts aside, both are exact:
what has to be known of a device on which something happens is read off here, and only the
four loops that show something are looked at one by one.

* `start_device`: the device after an event;
* `resume_device`: the device after a reply.
-/

namespace SpotiFriend

open SpotiFriend.Action Text

/-! ### Events -/

/-- The device after an event, but for its alerts. -/
def after (d : Device) : Event → Device
  | .viewWillAppear =>
    { d with mapShown := true, sharedUserInfo := .reset, crashed := d.currentUser.isNone }
  | .reloadMapClicked map => { d with annotations := Function.update d.annotations map [] }
  | .didUpdateLocations map (latestLoc :: _) =>
    { d with
      annotations := Function.update d.annotations map []
      region := Function.update d.region map
        (some ⟨latestLoc, d.sharedUserInfo.mapRadius, d.sharedUserInfo.mapRadius⟩) }
  | .userLocationChanged location => { d with userLocation := location }
  | .editText vc field text =>
    { d with text := Function.update d.text vc (Function.update (d.text vc) field text) }
  | .mapLongPressed vc coords =>
    { d with
      chosen := Function.update d.chosen vc coords
      annotations := Function.update d.annotations vc (d.annotations vc ++
        [⟨"Playlist will be placed here!", "tap again to replace", coords⟩]) }
  | .logOutClicked true => { d with currentUser := none, mapShown := false }
  | .updateClicked _ .email => { d with crashed := d.currentUser.isNone }
  | .updateClicked _ .username => { d with crashed := d.currentUser.isNone }
  | .updateMapRadiusClicked _ => { d with crashed := d.currentUser.isNone }
  | .deleteAccountClicked => { d with crashed := d.currentUser.isNone }
  | _ => d

variable {α : Type} {d : Device} {P : Platform}

/-- A click that needs a user crashes the device where there is none. -/
theorem withUser_device {f : User → Action} (live : d.crashed = false)
    (hf : ∀ user, ∃ l, (f user d).1 = { d with alerts := d.alerts ++ l }) :
    ∃ l, (EditAccountVC.withUser f d).1 =
      { d with crashed := d.currentUser.isNone, alerts := d.alerts ++ l } := by
  rw [EditAccountVC.withUser]
  cases huser : d.currentUser with
  | none => exact ⟨[], by simp [crash, huser]⟩
  | some user =>
    obtain ⟨l, hl⟩ := hf user
    exact ⟨l, hl.trans (by simp [live, huser])⟩

theorem updateAnnotations_device (map : VC) (live : d.crashed = false) :
    (MapVC.updateAnnotations map d).1 =
      { d with annotations := Function.update d.annotations map [] } := by
  rw [MapVC.updateAnnotations, andThen_of_live (by exact live), MapVC.addStaticAnnotations,
    andThen_issue _ (by exact live)]
  rfl

/-- **The device after an event**, to which alerts may be added. -/
theorem start_device (e : Event) (live : d.crashed = false) :
    ∃ l, (start e d).1 = { after d e with alerts := d.alerts ++ l } := by
  have hsame : ∀ {d' : Device}, d' = d → ∃ l, d' = { d with alerts := d.alerts ++ l } := by
    rintro d' rfl
    exact ⟨[], by rw [List.append_nil]⟩
  have halert : ∀ a : Alert, ∃ l, ({ d with alerts := d.alerts ++ [a] } : Device) =
      { d with alerts := d.alerts ++ l } := fun a => ⟨[a], rfl⟩
  cases e with
  | viewDidLoad map =>
    refine hsame ?_
    rw [start, MapVC.viewDidLoad, MapVC.addStaticAnnotations, andThen_issue _ live]
    rfl
  | viewWillAppear => exact ⟨[], by rw [start, MapVC.viewWillAppear_apply live]; simp [after]⟩
  | reloadMapClicked map =>
    exact ⟨[], (updateAnnotations_device map live).trans (by simp [after])⟩
  | didUpdateLocations map locations =>
    cases locations with
    | nil => exact hsame rfl
    | cons latestLoc _ =>
      refine ⟨[], ?_⟩
      rw [start, MapVC.didUpdateLocations, MapVC.zoomToLatestLoc,
        andThen_of_live (by rw [updateAnnotations_device map live]; exact live),
        updateAnnotations_device map live]
      simp [after]
  | userLocationChanged location => exact ⟨[], by simp [start, after]⟩
  | viewFor pin p => exact hsame rfl
  | calloutTapped p => exact hsame (by rw [start, MapVC.calloutTapped_apply live])
  | editText vc field text => exact ⟨[], by simp [start, after]⟩
  | mapLongPressed vc coords =>
    refine ⟨[], ?_⟩
    rw [start, AddPlaylistVC.mapLongPressed, andThen_of_live (by exact live)]
    simp [after, MapVC.addAnnotation]
  | addPlaylistClicked vc =>
    rw [start, AddPlaylistVC.addPlaylistClicked]
    split
    · split
      · exact hsame (by rw [andThen_issue _ live]; rfl)
      · exact halert _
    · exact hsame rfl
  | signUpClicked vc =>
    rw [start, SignUpVC.signUpClicked]
    split
    · exact hsame rfl
    · exact halert _
  | logInClicked vc =>
    rw [start, LogInVC.logInClicked]
    split
    · exact hsame rfl
    · exact halert _
  | logOutClicked signOut =>
    cases signOut with
    | true => exact ⟨[], by simp [start, ProfileVC.logOutClicked, after]⟩
    | false => exact halert _
  | updateClicked vc selectedEditID =>
    cases selectedEditID with
    | email =>
      refine withUser_device live (fun user => ?_)
      dsimp only
      split
      · exact hsame rfl
      · exact halert _
    | password =>
      rw [start, EditAccountVC.updateClicked]
      dsimp only
      split
      · split
        · exact hsame rfl
        · exact hsame rfl
      · exact halert _
    | username => exact withUser_device live (fun _ => hsame rfl)
    | unset => exact halert _
  | updateMapRadiusClicked vc => exact withUser_device live (fun _ => hsame rfl)
  | deleteAccountClicked =>
    exact withUser_device live (fun _ => hsame (by rw [andThen_issue _ live]; rfl))
  | storeProfilePic uuid => exact hsame rfl

/-! ### Replies -/

def loops : Request → Bool
  | .addStaticAnnotations _ => true
  | .addUserAnnotations _ => true
  | .checkPlaylists _ _ => true
  | .viewForUserInfo _ _ => true
  | _ => false

def shares (d : Device) : (r : Request) → Except String r.Answer → UserSingleton → UserSingleton
  | .getUserInfo _, .ok docs, u => docs.foldl (fun u doc => u.load doc.data) u
  | .storeFound _ _, .ok _, u => { u with totalPlaylistsFound := u.totalPlaylistsFound + 1 }
  | .storeCreated _ _, .ok _, u => { u with totalPlaylistsCreated := u.totalPlaylistsCreated + 1 }
  | .updateEmail vc _ _ _, .ok _, u => { u with email := d.text vc .desiredTextField }
  | .storeUsername vc _ _, .ok _, u => { u with username := d.text vc .desiredTextField }
  | .storeRadius vc _ _, .ok _, u =>
    { u with mapRadius := (SettingsVC.radiusOf (d.text vc .mapRadiusTextField)).mul (.fin 1609) }
  | .storePicture _ imgURL, .ok _, u => { u with profilePicURL := imgURL }
  | _, _, u => u

/-- The alert that the handler makes of an error: none for the query of `addPlaylistClicked` and
for the download URL of a picture, which are not reported. -/
def alertOf : (r : Request) → Except String r.Answer → List Alert
  | .addPlaylist _ _ _ _ _, .error _ => [⟨"Error", "Could not store playlist in database"⟩]
  | .createdUserInfo _ _, .error _ => []
  | .deleteUserInfo _, .error _ => [⟨"Error", "Error deleting user from DataBase."⟩]
  | .pictureURL _, .error _ => []
  | _, .error err => [⟨"Error", err⟩]
  | _, .ok _ => []

def canOpen : Value → Bool
  | .string text => (urlOf text).isSome
  | _ => false

/-- The text is a URL, and it does not lead to something that is no image. -/
def canShow (P : Platform) (url : String) : Bool :=
  (urlOf url).isSome && P.contents url ≠ .noImage

/-- The handler needs a user and nobody is signed in, or it is given something that cannot be
opened, shown or taken apart. -/
def fatalReply (P : Platform) (d : Device) : (r : Request) → Except String r.Answer → Bool
  | .updatePassword _ _ _, .ok _ => d.currentUser.isNone
  | .checkPlaylists _ _, .ok docs =>
    d.spotifyInstalled && docs.any (fun doc => !canOpen (MapVC.linkOf doc.data))
  | .viewForUserInfo _ _, .ok docs =>
    docs.any (fun doc => (getString doc.data .profilePicURL).any (fun url => !canShow P url))
  | .pictureURL _, .ok _ => d.sharedUserInfo.profilePicURL ≠ "" &&
    (ProfileVC.oldUUID d.sharedUserInfo.profilePicURL).isNone
  | _, _ => false

def leavesMap : (r : Request) → Except String r.Answer → Bool
  | .deleteUser _, .ok _ => true
  | _, _ => false

/-- The device after a reply that shows nothing. -/
def replied (P : Platform) (d : Device) (r : Request) (a : Except String r.Answer) : Device :=
  { d with
    currentUser := authState r a d.currentUser
    sharedUserInfo := shares d r a d.sharedUserInfo
    mapShown := d.mapShown && !leavesMap r a
    alerts := d.alerts ++ alertOf r a
    crashed := fatalReply P d r a }

theorem forEach_device {f : Doc → Action} (hf : ∀ doc d, (f doc d).1 = d) (docs : List Doc) (d : Device) :
    (forEach f docs d).1 = d := Keeps.forEach (π := id) (fun doc _ d => hf doc d) d

theorem updateOnly_device {write : Doc → Action} (hf : ∀ doc d, (write doc d).1 = d) (docs : List Doc)
    (d : Device) : (EditAccountVC.updateOnly write docs d).1 = d := by
  rw [EditAccountVC.updateOnly]
  split
  · rfl
  · exact forEach_device hf docs d

/-- The name of the old picture cannot always be cut out of its URL. -/
theorem deleteOldPicture_device (d : Device) : (ProfileVC.deleteOldPicture d).1 =
    { d with crashed := d.crashed || (d.sharedUserInfo.profilePicURL ≠ "" &&
        (ProfileVC.oldUUID d.sharedUserInfo.profilePicURL).isNone) } := by
  rw [ProfileVC.deleteOldPicture]
  by_cases hurl : d.sharedUserInfo.profilePicURL = ""
  · simp [hurl]
  · cases ProfileVC.oldUUID d.sharedUserInfo.profilePicURL <;> simp [hurl, crash]

/-- The alert of an error, where nothing else is done on the device. -/
theorem orAlert_device {reply : Except String α} {f : α → Action} {d : Device}
    (hf : ∀ x, (f x d).1 = d) : (orAlert reply f d).1 =
      { d with alerts := d.alerts ++ match reply with
        | .ok _ => []
        | .error err => [⟨"Error", err⟩] } := by
  cases reply with
  | ok x => exact (hf x).trans (by simp)
  | error err => rfl

/-- **The device after a reply**, where the handler shows nothing. -/
theorem resume_device (r : Request) (m : ℤ) (a : Except String r.Answer) (live : d.crashed = false)
    (hr : loops r = false) : (resume P r m a d).1 = replied P d r a := by
  cases r with
  | addStaticAnnotations | addUserAnnotations | checkPlaylists | viewForUserInfo => cases hr
  -- only the alert of an error
  | deleteOldPlaylist | storeHasFound | storeEmail | storePassword | createUser | addUserInfo | signIn |
      putPicture | deletePicture =>
    refine (orAlert_device (fun _ => rfl)).trans ?_
    cases a <;> simp [replied, authState, shares, leavesMap, alertOf, fatalReply, live]
  | viewForPlaylist pin p =>
    refine (orAlert_device (fun docs => forEach_device (fun doc d => ?_) docs _)).trans ?_
    · cases getString doc.data .email <;> rfl
    · cases a <;> simp [replied, authState, shares, leavesMap, alertOf, fatalReply, live]
  | foundUserInfo | deletedUserInfo | pictureUserInfo =>
    refine (orAlert_device (fun docs => forEach_device (fun _ _ => rfl) docs _)).trans ?_
    cases a <;> simp [replied, authState, shares, leavesMap, alertOf, fatalReply, live]
  | emailUserInfo | passwordUserInfo | usernameUserInfo | radiusUserInfo =>
    refine (orAlert_device (fun docs => updateOnly_device (fun _ _ => rfl) docs _)).trans ?_
    cases a <;> simp [replied, authState, shares, leavesMap, alertOf, fatalReply, live]
  -- what is written to the singleton
  | getUserInfo | storeFound | storeCreated | storeUsername | storeRadius | storePicture | deleteUser =>
    cases a <;> simp [resume, handler, MapVC.getUserInfoReply, MapVC.storeFoundReply,
      AddPlaylistVC.storeCreatedReply, EditAccountVC.storeUsernameReply, SettingsVC.storeRadiusReply,
      ProfileVC.storePictureReply, SettingsVC.deleteUserReply, orAlert, makeAlert, replied, authState,
      shares, leavesMap, alertOf, fatalReply, live]
  -- errors that are told in another way, or not at all
  | addPlaylist | deleteUserInfo =>
    cases a <;> simp [resume, handler, AddPlaylistVC.addPlaylistReply, SettingsVC.deleteUserInfoReply,
      makeAlert, replied, authState, shares, leavesMap, alertOf, fatalReply, live]
  | createdUserInfo email n =>
    cases a with
    | error err =>
      simp [resume, handler, AddPlaylistVC.createdUserInfoReply, replied, authState, shares,
        leavesMap, alertOf, fatalReply, live]
    | ok docs =>
      have hloop : (AddPlaylistVC.createdUserInfoReply n (.ok docs) d).1 = d := by
        rw [AddPlaylistVC.createdUserInfoReply]
        split
        · exact forEach_device (fun _ _ => rfl) docs d
        · rfl
      have hself : { d with crashed := false } = d := by rw [← live]
      refine hloop.trans (hself.symm.trans ?_)
      simp [replied, authState, shares, leavesMap, alertOf, fatalReply]
  -- what needs a user
  | updateEmail vc uid email oldEmail =>
    cases a with
    | error err =>
      simp [resume, handler, EditAccountVC.updateEmailReply, orAlert, makeAlert, replied, authState,
        shares, leavesMap, alertOf, fatalReply, live]
    | ok _ =>
      rw [resume, handler, EditAccountVC.updateEmailReply, orAlert_ok, andThen_issue _ (by exact live)]
      simp [replied, shares, leavesMap, alertOf, fatalReply, live]
  | updatePassword vc uid password =>
    cases a with
    | error err =>
      simp [resume, handler, EditAccountVC.updatePasswordReply, orAlert, makeAlert, replied,
        authState, shares, leavesMap, alertOf, fatalReply, live]
    | ok _ =>
      rw [resume, handler, EditAccountVC.updatePasswordReply, orAlert_ok, EditAccountVC.withUser]
      cases huser : d.currentUser <;>
        simp [huser, crash, replied, authState, shares, leavesMap, alertOf, fatalReply, live]
  | pictureURL name =>
    cases a with
    | error err =>
      simp [resume, handler, ProfileVC.pictureURLReply, replied, authState, shares, leavesMap,
        alertOf, fatalReply, live]
    | ok imgURL =>
      refine Eq.trans (b := (ProfileVC.deleteOldPicture d).1) ?_ ((deleteOldPicture_device d).trans ?_)
      · rw [resume, handler, ProfileVC.pictureURLReply, andThen]
        split
        · rfl
        · rfl
      · simp [replied, authState, shares, leavesMap, alertOf, fatalReply, live]

/-! ### The loops -/

theorem addUserAnnotation_keeps {β : Type} {π : Device → β} (map : VC) (m : ℤ) (doc : Doc)
    (hπ : ∀ (d : Device) pins l, π { d with annotations := pins, alerts := l } = π d) :
    Keeps π <| MapVC.addUserAnnotation P map m doc := by
  rw [MapVC.addUserAnnotation]
  split
  · split
    · exact .issue _
    · split
      · intro d
        dsimp only
        split
        · split
          · exact hπ d _ d.alerts
          · rfl
        · exact hπ d d.annotations _
      · exact .skip
  · exact .skip

/-- **The loops** change no more than what they show, the alerts and whether the app has crashed. -/
theorem loops_keeps {β : Type} {π : Device → β} (r : Request) (m : ℤ) (a : Except String r.Answer)
    (hπ : ∀ (d : Device) pins links pictures l x, π { d with
      annotations := pins
      opened := links
      pinImages := pictures
      alerts := l
      crashed := x } = π d) (hr : loops r = true) : Keeps π (handler P m r a) := by
  have halert : ∀ d l, π { d with alerts := l } = π d :=
    fun d l => hπ d d.annotations d.opened d.pinImages l d.crashed
  cases r with
  | addStaticAnnotations map =>
    refine .orAlert halert (fun docs _ => .forEach (fun doc _ => ?_))
    split
    · exact fun d => hπ d _ d.opened d.pinImages d.alerts d.crashed
    · exact .skip
  | addUserAnnotations map =>
    exact .orAlert halert (fun docs _ => .forEach (fun doc _ =>
      addUserAnnotation_keeps map m doc (fun d pins l => hπ d pins d.opened d.pinImages l d.crashed)))
  | checkPlaylists coll p =>
    exact MapVC.checkPlaylistsReply_keeps
      (fun d links l x => hπ d d.annotations links d.pinImages l x)
  | viewForUserInfo pin email =>
    refine .orAlert halert (fun docs _ => .forEach (fun doc _ => ?_))
    split
    · exact MapVC.showPicture_keeps P pin _
        (fun d pictures x => hπ d d.annotations d.opened pictures d.alerts x)
    · exact .skip
  | _ => cases hr

theorem start_user (e : Event) (live : d.crashed = false) :
    (start e d).1.currentUser = if e = .logOutClicked true then none else d.currentUser := by
  obtain ⟨l, hl⟩ := start_device e live
  rw [hl]
  cases e with
  | didUpdateLocations map locations => cases locations <;> rfl
  | logOutClicked signOut => cases signOut <;> rfl
  | updateClicked vc selectedEditID => cases selectedEditID <;> rfl
  | _ => rfl

theorem resume_user (P : Platform) (r : Request) (m : ℤ) (a : Except String r.Answer)
    (live : d.crashed = false) :
    (resume P r m a d).1.currentUser = authState r a d.currentUser := by
  by_cases hr : loops r = true
  · exact loops_keeps (π := Device.currentUser) r m a (fun _ _ _ _ _ _ => rfl) hr _
  · rw [resume_device r m a live (Bool.eq_false_iff.mpr hr)]
    rfl

theorem start_shared (e : Event) (live : d.crashed = false) :
    (start e d).1.sharedUserInfo = if e = .viewWillAppear then .reset else d.sharedUserInfo := by
  obtain ⟨l, hl⟩ := start_device e live
  rw [hl]
  cases e with
  | didUpdateLocations map locations => cases locations <;> rfl
  | logOutClicked signOut => cases signOut <;> rfl
  | updateClicked vc selectedEditID => cases selectedEditID <;> rfl
  | _ => rfl

/-- **The singleton after a reply** is what `shares` makes of it. -/
theorem resume_shared (P : Platform) (r : Request) (m : ℤ) (a : Except String r.Answer)
    (live : d.crashed = false) :
    (resume P r m a d).1.sharedUserInfo = shares d r a d.sharedUserInfo := by
  by_cases hr : loops r = true
  · refine (loops_keeps (π := Device.sharedUserInfo) r m a (fun _ _ _ _ _ _ => rfl) hr _).trans ?_
    cases r <;> first | (cases a <;> rfl) | cases hr
  · rw [resume_device r m a live (Bool.eq_false_iff.mpr hr)]
    rfl

end SpotiFriend
