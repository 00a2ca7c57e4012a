import SpotiFriend.Async.Run
import SpotiFriend.Model.Accounts

/-!
# The app

`app` puts the pieces together: any number of devices, each running the app, and the
three services.  An event of a device is what the user, the map or the location
manager makes it do; everything else are the calls that take effect and the
completion handlers that run.
-/

namespace SpotiFriend

open SpotiFriend.Action

inductive Event
  | viewDidLoad (map : VC)
  | viewWillAppear
  | reloadMapClicked (map : VC)
  | didUpdateLocations (map : VC) (locations : List Coordinate)
  | userLocationChanged (location : Option Coordinate)
  | viewFor (pin : ℕ) (p : Coordinate)
  | calloutTapped (p : Coordinate)
  | editText (vc : VC) (field : TextField) (text : String)
  | mapLongPressed (vc : VC) (coords : Coordinate)
  | addPlaylistClicked (vc : VC)
  | signUpClicked (vc : VC)
  | logInClicked (vc : VC)
  | logOutClicked (signOut : Bool)
  | updateClicked (vc : VC) (selectedEditID : EditID)
  | updateMapRadiusClicked (vc : VC)
  | deleteAccountClicked
  | storeProfilePic (uuid : String)
  deriving DecidableEq

def start : Event → Action
  | .viewDidLoad map => MapVC.viewDidLoad map
  | .viewWillAppear => MapVC.viewWillAppear
  | .reloadMapClicked map => MapVC.updateAnnotations map
  | .didUpdateLocations map locations => MapVC.didUpdateLocations map locations
  | .userLocationChanged location => modify (fun d => { d with userLocation := location })
  | .viewFor pin p => MapVC.viewFor pin p
  | .calloutTapped p => MapVC.calloutTapped p
  | .editText vc field text => modify (fun d =>
    { d with text := Function.update d.text vc (Function.update (d.text vc) field text) })
  | .mapLongPressed vc coords => AddPlaylistVC.mapLongPressed vc coords
  | .addPlaylistClicked vc => AddPlaylistVC.addPlaylistClicked vc
  | .signUpClicked vc => SignUpVC.signUpClicked vc
  | .logInClicked vc => LogInVC.logInClicked vc
  | .logOutClicked signOut => ProfileVC.logOutClicked signOut
  | .updateClicked vc selectedEditID => EditAccountVC.updateClicked vc selectedEditID
  | .updateMapRadiusClicked vc => SettingsVC.updateMapRadiusClicked vc
  | .deleteAccountClicked => SettingsVC.deleteAccountClicked
  | .storeProfilePic uuid => ProfileVC.storeProfilePic uuid

/-- What Auth's SDK makes of `currentUser` before it runs the completion handler. -/
def authState : (r : Request) → Except String r.Answer → Option User → Option User
  | .createUser _ _ _, .ok user, _ => some user
  | .signIn _ _, .ok user, _ => some user
  | .updateEmail _ uid email _, .ok _, current =>
    current.map (fun user => if user.uid = uid then ⟨uid, email⟩ else user)
  | .deleteUser uid, .ok _, current => current.filter (fun user => user.uid ≠ uid)
  | _, _, current => current

def handler (P : Platform) (now : ℤ) : (r : Request) → Except String r.Answer → Action
  | .getUserInfo _, reply => MapVC.getUserInfoReply reply
  | .addStaticAnnotations map, reply => MapVC.addStaticAnnotationsReply map reply
  | .addUserAnnotations map, reply => MapVC.addUserAnnotationsReply P map now reply
  | .deleteOldPlaylist _, reply => MapVC.deleteOldPlaylistReply reply
  | .viewForPlaylist pin _, reply => MapVC.viewForPlaylistReply pin reply
  | .viewForUserInfo pin _, reply => MapVC.viewForUserInfoReply P pin reply
  | .checkPlaylists coll _, reply => MapVC.checkPlaylistsReply coll reply
  | .storeHasFound _ _ _ currUserEmail, reply => MapVC.storeHasFoundReply currUserEmail reply
  | .foundUserInfo _, reply => MapVC.foundUserInfoReply reply
  | .storeFound _ _, reply => MapVC.storeFoundReply reply
  | .addPlaylist _ _ _ _ _, reply => AddPlaylistVC.addPlaylistReply reply
  | .createdUserInfo _ n, reply => AddPlaylistVC.createdUserInfoReply n reply
  | .storeCreated _ _, reply => AddPlaylistVC.storeCreatedReply reply
  | .updateEmail vc _ _ oldEmail, reply => EditAccountVC.updateEmailReply vc oldEmail reply
  | .emailUserInfo vc _, reply => EditAccountVC.emailUserInfoReply vc reply
  | .storeEmail _ _, reply => EditAccountVC.storeEmailReply reply
  | .updatePassword vc _ _, reply => EditAccountVC.updatePasswordReply vc reply
  | .passwordUserInfo vc _, reply => EditAccountVC.passwordUserInfoReply vc reply
  | .storePassword _ _, reply => EditAccountVC.storePasswordReply reply
  | .usernameUserInfo vc _, reply => EditAccountVC.usernameUserInfoReply vc reply
  | .storeUsername vc _ _, reply => EditAccountVC.storeUsernameReply vc reply
  | .createUser vc _ _, reply => SignUpVC.createUserReply vc reply
  | .addUserInfo _ _ _, reply => SignUpVC.addUserInfoReply reply
  | .signIn _ _, reply => LogInVC.signInReply reply
  | .radiusUserInfo vc _, reply => SettingsVC.radiusUserInfoReply vc reply
  | .storeRadius vc _ _, reply => SettingsVC.storeRadiusReply vc reply
  | .deletedUserInfo _, reply => SettingsVC.deletedUserInfoReply reply
  | .deleteUserInfo _, reply => SettingsVC.deleteUserInfoReply reply
  | .deleteUser _, reply => SettingsVC.deleteUserReply reply
  | .putPicture name, reply => ProfileVC.putPictureReply name reply
  | .pictureURL _, reply => ProfileVC.pictureURLReply reply
  | .deletePicture _, reply => ProfileVC.deletePictureReply reply
  | .pictureUserInfo _ imgURL, reply => ProfileVC.pictureUserInfoReply imgURL reply
  | .storePicture _ imgURL, reply => ProfileVC.storePictureReply imgURL reply

/-- The reply reaches the device: Auth's SDK first, then the completion handler. -/
def resume (P : Platform) (r : Request) (now : ℤ) (reply : Except String r.Answer) : Action :=
  fun d => handler P now r reply { d with currentUser := authState r reply d.currentUser }

/-- The app on its devices, with the services.  A moment is a time: the server's when a
call takes effect, the device's when a handler runs. -/
@[reducible] def app (P : Platform) :
    Async.System Request String Device Backend Event ℤ Request.Answer where
  exec r now b := r.operation.exec P now b
  start := start
  resume := resume P
  live d := !d.crashed

@[simp] theorem app_exec (P : Platform) (r : Request) (now : ℤ) (b : Backend) :
    (app P).exec r now b = r.operation.exec P now b := rfl

@[simp] theorem app_start (P : Platform) : (app P).start = start := rfl

@[simp] theorem app_resume (P : Platform) : (app P).resume = resume P := rfl

@[simp] theorem app_live (P : Platform) (d : Device) : (app P).live d = !d.crashed := rfl

abbrev State := Async.State ℕ Request String Device Backend Request.Answer

abbrev Job := Async.Job ℕ Request String Request.Answer

abbrev Label := Async.Label ℕ String Event ℤ

end SpotiFriend
