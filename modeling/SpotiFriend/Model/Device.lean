import SpotiFriend.Model.Backend
import SpotiFriend.Text.Uri

/-!
# A device

`Device` is the memory of one running app: the shared `UserSingleton`, the user that
Auth has signed in, and what its view controllers hold.  View controllers are told
apart by a number, since a closure that captured `self` goes on reading the text
fields of its own controller after another one is on screen.

`Request` has one constructor for each place where the code calls a service with a
completion handler; its arguments are those of the call and the variables that the
handler captures.
-/

namespace SpotiFriend

open Text

/-- `UserSingleton.sharedUserInfo`, whose counters have no bound here. -/
structure UserSingleton where
  email : String
  username : String
  profilePicURL : String
  mapRadius : Double
  totalPlaylistsCreated : ℤ
  totalPlaylistsFound : ℤ
  deriving DecidableEq

/-- The values that a new singleton has and that `getUserInfo` sets first. -/
def UserSingleton.reset : UserSingleton := ⟨"", "", "", .fin 40225, 0, 0⟩

abbrev VC := ℕ

inductive TextField
  | usernameTextField
  | emailTextField
  | passwordTextField
  | desiredTextField
  | mapRadiusTextField
  | titleTextField
  | linkTextField
  deriving DecidableEq

/-- `selectedEditID` of an `editAccountVC`; `unset` is the empty text. -/
inductive EditID
  | email
  | password
  | username
  | unset
  deriving DecidableEq

structure Annotation where
  title : String
  subtitle : String
  coordinate : Coordinate
  deriving DecidableEq

/-- An `MKCoordinateRegion` with its extent in meters. -/
structure Region where
  center : Coordinate
  latitudinalMeters : Double
  longitudinalMeters : Double
  deriving DecidableEq

structure Alert where
  title : String
  message : String
  deriving DecidableEq

/-- The memory of one running app. -/
structure Device where
  sharedUserInfo : UserSingleton
  /-- `Auth.auth().currentUser` -/
  currentUser : Option User
  /-- The map has appeared since the user signed in. -/
  mapShown : Bool
  text : VC → TextField → String
  /-- `chosenLat` and `chosenLong` of an `addPlaylistVC`. -/
  chosen : VC → Coordinate
  /-- `mapView.annotations`, without the mark of the user's own location. -/
  annotations : VC → List Annotation
  region : VC → Option Region
  /-- `mapView.userLocation.location` -/
  userLocation : Option Coordinate
  /-- The profile pictures given to annotation views. -/
  pinImages : List (ℕ × String)
  spotifyInstalled : Bool
  /-- The links that were handed to Spotify. -/
  opened : List String
  alerts : List Alert
  /-- The app ended with a runtime error. -/
  crashed : Bool

namespace Device

/-- An app that has just been started with nobody signed in. -/
def launched : Device where
  sharedUserInfo := .reset
  currentUser := none
  mapShown := false
  text := fun _ _ => ""
  chosen := fun _ => ⟨.fin 0, .fin 0⟩
  annotations := fun _ => []
  region := fun _ => none
  userLocation := none
  pinImages := []
  spotifyInstalled := true
  opened := []
  alerts := []
  crashed := false

end Device

/-- The calls of the code, each with what its completion handler captures. -/
inductive Request
  -- `mapVC`
  | getUserInfo (email : String)
  | addStaticAnnotations (map : VC)
  | addUserAnnotations (map : VC)
  | deleteOldPlaylist (id : ℕ)
  | viewForPlaylist (pin : ℕ) (p : Coordinate)
  | viewForUserInfo (pin : ℕ) (email : String)
  | checkPlaylists (coll : CollectionName) (p : Coordinate)
  | storeHasFound (coll : CollectionName) (id : ℕ) (hasFound : List String)
      (currUserEmail : String)
  | foundUserInfo (currUserEmail : String)
  | storeFound (id : ℕ) (totalPlaylistsFound : ℤ)
  -- `addPlaylistVC`
  | addPlaylist (title author email : String) (p : Coordinate) (link : String)
  | createdUserInfo (email : String) (totalPlaylistsCreated : ℤ)
  | storeCreated (id : ℕ) (totalPlaylistsCreated : ℤ)
  -- `editAccountVC`
  | updateEmail (vc : VC) (uid : ℕ) (email oldEmail : String)
  | emailUserInfo (vc : VC) (oldEmail : String)
  | storeEmail (id : ℕ) (email : String)
  | updatePassword (vc : VC) (uid : ℕ) (password : String)
  | passwordUserInfo (vc : VC) (email : String)
  | storePassword (id : ℕ) (password : String)
  | usernameUserInfo (vc : VC) (email : String)
  | storeUsername (vc : VC) (id : ℕ) (username : String)
  -- `signUpVC` and `logInVC`
  | createUser (vc : VC) (email password : String)
  | addUserInfo (username email password : String)
  | signIn (email password : String)
  -- `settingsVC`
  | radiusUserInfo (vc : VC) (email : String)
  | storeRadius (vc : VC) (id : ℕ) (mapRadius : Double)
  | deletedUserInfo (email : String)
  | deleteUserInfo (id : ℕ)
  | deleteUser (uid : ℕ)
  -- `profileVC`
  | putPicture (name : String)
  | pictureURL (name : String)
  | deletePicture (name : String)
  | pictureUserInfo (email imgURL : String)
  | storePicture (id : ℕ) (imgURL : String)
  deriving DecidableEq

namespace Request

/-- `addDict` of `addPlaylistClicked`. -/
def playlistDict (title author email : String) (p : Coordinate) (link : String) : Dict :=
  [(.title, .value (.string title)), (.author, .value (.string author)),
    (.email, .value (.string email)), (.latitude, .value (.number p.latitude)),
    (.longitude, .value (.number p.longitude)), (.spotifyLink, .value (.string link)),
    (.date, .serverTimestamp), (.hasFound, .value (.strings []))]

/-- `userDict` of `signUpClicked`. -/
def userDict (username email password : String) : Dict :=
  [(.username, .value (.string username)), (.email, .value (.string email)),
    (.password, .value (.string password))]

@[reducible] def operation : Request → Operation
  | .getUserInfo email => .getDocuments (.userInfo email)
  | .addStaticAnnotations _ => .getDocuments (.all .masterPlaylists)
  | .addUserAnnotations _ => .getDocuments (.all .userPlaylists)
  | .deleteOldPlaylist id => .deleteDocument .userPlaylists id
  | .viewForPlaylist _ p => .getDocuments (.atCoordinate .userPlaylists p)
  | .viewForUserInfo _ email => .getDocuments (.userInfo email)
  | .checkPlaylists coll p => .getDocuments (.atCoordinate coll p)
  | .storeHasFound coll id hasFound _ => .setData coll id [(.hasFound, .value (.strings hasFound))]
  | .foundUserInfo currUserEmail => .getDocuments (.userInfo currUserEmail)
  | .storeFound id n => .setData .userInfo id [(.totalPlaylistsFound, .value (.int n))]
  | .addPlaylist title author email p link =>
    .addDocument .userPlaylists (playlistDict title author email p link)
  | .createdUserInfo email _ => .getDocuments (.userInfo email)
  | .storeCreated id n => .setData .userInfo id [(.totalPlaylistsCreated, .value (.int n))]
  | .updateEmail _ uid email _ => .updateEmail uid email
  | .emailUserInfo _ oldEmail => .getDocuments (.userInfo oldEmail)
  | .storeEmail id email => .setData .userInfo id [(.email, .value (.string email))]
  | .updatePassword _ uid password => .updatePassword uid password
  | .passwordUserInfo _ email => .getDocuments (.userInfo email)
  | .storePassword id password => .setData .userInfo id [(.password, .value (.string password))]
  | .usernameUserInfo _ email => .getDocuments (.userInfo email)
  | .storeUsername _ id username => .setData .userInfo id [(.username, .value (.string username))]
  | .createUser _ email password => .createUser email password
  | .addUserInfo username email password =>
    .addDocument .userInfo (userDict username email password)
  | .signIn email password => .signIn email password
  | .radiusUserInfo _ email => .getDocuments (.userInfo email)
  | .storeRadius _ id mapRadius => .setData .userInfo id [(.mapRadius, .value (.number mapRadius))]
  | .deletedUserInfo email => .getDocuments (.userInfo email)
  | .deleteUserInfo id => .deleteDocument .userInfo id
  | .deleteUser uid => .deleteUser uid
  | .putPicture name => .putData name
  | .pictureURL name => .downloadURL name
  | .deletePicture name => .deleteObject name
  | .pictureUserInfo email _ => .getDocuments (.userInfo email)
  | .storePicture id imgURL => .setData .userInfo id [(.profilePicURL, .value (.string imgURL))]

@[reducible] def Answer (r : Request) : Type := r.operation.Answer

end Request

/-! ### Actions -/

/-- A piece of code that runs on the main thread: it changes the device and leaves
requests behind. -/
abbrev Action := Device → Device × List Request

namespace Action

def skip : Action := fun d => (d, [])

def modify (f : Device → Device) : Action := fun d => (f d, [])

def issue (r : Request) : Action := fun d => (d, [r])

def makeAlert (title message : String) : Action :=
  modify (fun d => { d with alerts := d.alerts ++ [⟨title, message⟩] })

/-- A forced unwrapping of `nil`, an index out of range, a failed `as!`. -/
def crash : Action := modify (fun d => { d with crashed := true })

def share (f : UserSingleton → UserSingleton) : Action :=
  modify (fun d => { d with sharedUserInfo := f d.sharedUserInfo })

/-- `a`, and then `b` unless the app has crashed. -/
def andThen (a b : Action) : Action := fun d =>
  if (a d).1.crashed then a d else ((b (a d).1).1, (a d).2 ++ (b (a d).1).2)

/-- `for x in xs` -/
def forEach {α : Type} (f : α → Action) : List α → Action
  | [] => skip
  | x :: xs => andThen (f x) (forEach f xs)

/-- `if error != nil { makeAlert } else { .. }` -/
def orAlert {α : Type} (reply : Except String α) (a : α → Action) : Action :=
  match reply with
  | .ok x => a x
  | .error e => makeAlert "Error" e

end Action

end SpotiFriend
