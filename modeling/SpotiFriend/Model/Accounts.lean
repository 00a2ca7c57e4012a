import SpotiFriend.Model.Playlists
import SpotiFriend.Text.Pattern

/-!
# `signUpVC`, `logInVC`, `editAccountVC`, `settingsVC` and `profileVC`

The forms that make, change and delete an account, and the profile picture.
-/

namespace SpotiFriend

open Text SpotiFriend.Action

/-! ### Signing up and logging in -/

namespace SignUpVC

def signUpClicked (vc : VC) : Action := fun d =>
  if d.text vc .usernameTextField ≠ "" ∧ d.text vc .emailTextField ≠ "" ∧
      d.text vc .passwordTextField ≠ "" then
    issue (.createUser vc (d.text vc .emailTextField) (d.text vc .passwordTextField)) d
  else makeAlert "Error" "Please enter valid credentials" d

/-- The text fields are read once more for the document of the new user. -/
def createUserReply (vc : VC) (reply : Except String User) : Action :=
  orAlert reply (fun _ d =>
    issue (.addUserInfo (d.text vc .usernameTextField) (d.text vc .emailTextField)
      (d.text vc .passwordTextField)) d)

def addUserInfoReply (reply : Except String Unit) : Action := orAlert reply (fun _ => skip)

end SignUpVC

namespace LogInVC

def logInClicked (vc : VC) : Action := fun d =>
  if d.text vc .emailTextField ≠ "" ∧ d.text vc .passwordTextField ≠ "" then
    issue (.signIn (d.text vc .emailTextField) (d.text vc .passwordTextField)) d
  else makeAlert "Error" "Please enter valid credentials" d

def signInReply (reply : Except String User) : Action := orAlert reply (fun _ => skip)

end LogInVC

/-! ### Changing an account -/

namespace EditAccountVC

/-- `[A-Z0-9a-z._%+-]+@[A-Za-z0-9.-]+\.[A-Za-z]{2,64}` -/
def regularExpressionForEmail : List Piece :=
  [.plus (fun c => Uri.isAlpha c || Uri.isDigit c || ['.', '_', '%', '+', '-'].contains c),
    .once (· = '@'),
    .plus (fun c => Uri.isAlpha c || Uri.isDigit c || ['.', '-'].contains c),
    .once (· = '.'),
    .times Uri.isAlpha 2 64]

def isValidEmail (s : String) : Bool := fullMatch regularExpressionForEmail s.toList

/-- `Auth.auth().currentUser!` -/
def withUser (a : User → Action) : Action := fun d =>
  match d.currentUser with
  | some user => a user d
  | none => crash d

def updateClicked (vc : VC) : EditID → Action
  | .email => withUser (fun user d =>
    let desired := d.text vc .desiredTextField
    if desired ≠ "" ∧ isValidEmail desired then
      issue (.updateEmail vc user.uid desired user.email) d
    else makeAlert "Error" "please enter valid email address" d)
  | .password => fun d =>
    let desired := d.text vc .desiredTextField
    if desired ≠ "" then
      match d.currentUser with
      | some user => issue (.updatePassword vc user.uid desired) d
      | none => skip d
    else makeAlert "Error" "please enter valid password" d
  | .username => withUser (fun user => issue (.usernameUserInfo vc user.email))
  | .unset => makeAlert "Error" "impossible state"

/-- Write to the document that was found, unless there is more than one. -/
def updateOnly (write : Doc → Action) (docs : List Doc) : Action :=
  if 1 < docs.length then skip else forEach write docs

def updateEmailReply (vc : VC) (oldEmail : String) (reply : Except String Unit) : Action :=
  orAlert reply (fun _ =>
    andThen (issue (.emailUserInfo vc oldEmail))
      (fun d => share (fun u => { u with email := d.text vc .desiredTextField }) d))

def emailUserInfoReply (vc : VC) (reply : Except String (List Doc)) : Action :=
  orAlert reply (updateOnly (fun doc d =>
    issue (.storeEmail doc.id (d.text vc .desiredTextField)) d))

def storeEmailReply (reply : Except String Unit) : Action := orAlert reply (fun _ => skip)

def updatePasswordReply (vc : VC) (reply : Except String Unit) : Action :=
  orAlert reply (fun _ => withUser (fun user => issue (.passwordUserInfo vc user.email)))

def passwordUserInfoReply (vc : VC) (reply : Except String (List Doc)) : Action :=
  orAlert reply (updateOnly (fun doc d =>
    issue (.storePassword doc.id (d.text vc .desiredTextField)) d))

def storePasswordReply (reply : Except String Unit) : Action := orAlert reply (fun _ => skip)

def usernameUserInfoReply (vc : VC) (reply : Except String (List Doc)) : Action :=
  orAlert reply (updateOnly (fun doc d =>
    issue (.storeUsername vc doc.id (d.text vc .desiredTextField)) d))

def storeUsernameReply (vc : VC) (reply : Except String Unit) : Action :=
  orAlert reply (fun _ d => share (fun u => { u with username := d.text vc .desiredTextField }) d)

end EditAccountVC

namespace SettingsVC

open EditAccountVC

/-- `Double(self.mapRadiusTextField.text!) ?? 25` -/
def radiusOf (text : String) : Double := (Double.ofText text).getD (.fin 25)

def updateMapRadiusClicked (vc : VC) : Action :=
  withUser (fun user => issue (.radiusUserInfo vc user.email))

def radiusUserInfoReply (vc : VC) (reply : Except String (List Doc)) : Action :=
  orAlert reply (updateOnly (fun doc d =>
    issue (.storeRadius vc doc.id (radiusOf (d.text vc .mapRadiusTextField))) d))

def storeRadiusReply (vc : VC) (reply : Except String Unit) : Action :=
  orAlert reply (fun _ d =>
    share (fun u =>
      { u with mapRadius := (radiusOf (d.text vc .mapRadiusTextField)).mul (.fin 1609) }) d)

/-- The document and the account are deleted by two calls that do not wait for each
other. -/
def deleteAccountClicked : Action :=
  withUser (fun user =>
    andThen (issue (.deletedUserInfo user.email)) (issue (.deleteUser user.uid)))

def deletedUserInfoReply (reply : Except String (List Doc)) : Action :=
  orAlert reply (forEach (fun doc => issue (.deleteUserInfo doc.id)))

def deleteUserInfoReply : Except String Unit → Action
  | .ok _ => skip
  | .error _ => makeAlert "Error" "Error deleting user from DataBase."

/-- The segue leads to the log-in screen. -/
def deleteUserReply (reply : Except String Unit) : Action :=
  orAlert reply (fun _ => modify (fun d => { d with mapShown := false }))

end SettingsVC

/-! ### The profile -/

namespace ProfileVC

/-- `logOutClicked`; `signOut` may throw. -/
def logOutClicked (signOut : Bool) : Action :=
  if signOut then modify (fun d => { d with currentUser := none, mapShown := false })
  else makeAlert "Error" "Unable to log out, try again later."

/-- `storeProfilePic` with the UUID that it draws. -/
def storeProfilePic (uuid : String) : Action := issue (.putPicture (uuid ++ ".jpg"))

def putPictureReply (name : String) (reply : Except String Unit) : Action :=
  orAlert reply (fun _ => issue (.pictureURL name))

/-- `url.components(separatedBy: "media%2F")[1].components(separatedBy: "?alt")[0]`, where
the index is in range. -/
def oldUUID (url : String) : Option String :=
  match components "media%2F".toList url.toList with
  | _ :: part :: _ => ((components "?alt".toList part).head?).map String.ofList
  | _ => none

def deleteOldPicture : Action := fun d =>
  if d.sharedUserInfo.profilePicURL ≠ "" then
    match oldUUID d.sharedUserInfo.profilePicURL with
    | some name => issue (.deletePicture name) d
    | none => crash d
  else skip d

def pictureURLReply : Except String String → Action
  | .ok imgURL =>
    andThen deleteOldPicture (fun d => issue (.pictureUserInfo d.sharedUserInfo.email imgURL) d)
  | .error _ => skip

def deletePictureReply (reply : Except String Unit) : Action := orAlert reply (fun _ => skip)

def pictureUserInfoReply (imgURL : String) (reply : Except String (List Doc)) : Action :=
  orAlert reply (forEach (fun doc => issue (.storePicture doc.id imgURL)))

def storePictureReply (imgURL : String) (reply : Except String Unit) : Action :=
  orAlert reply (fun _ => share (fun u => { u with profilePicURL := imgURL }))

end ProfileVC

end SpotiFriend
