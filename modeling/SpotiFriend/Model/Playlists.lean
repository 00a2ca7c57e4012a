import SpotiFriend.Model.Device

/-!
# `mapVC` and `addPlaylistVC`

The map with its pins, the taps on them and the form for a new playlist.  A function
of the source is an `Action` under its name; the completion handler of a call that it
makes is the `Action` of the same name with `Reply`, which takes what the handler is
given.
-/

namespace SpotiFriend

open Text SpotiFriend.Action

/-- `doc.get(k) as? String` -/
def getString (f : Fields) (k : Field) : Option String := (f k).bind Value.asString

/-- `doc.get(k) as? Double` -/
def getDouble (f : Fields) (k : Field) : Option Double := (f k).bind Value.asDouble

/-- `doc.get(k) as? Int` -/
def getInt (f : Fields) (k : Field) : Option ℤ := (f k).bind Value.asInt

/-- `doc.get(k) as? Timestamp` -/
def getTimestamp (f : Fields) (k : Field) : Option ℤ := (f k).bind Value.asTimestamp

/-- `doc.get(k) as? [String]` -/
def getStrings (f : Fields) (k : Field) : Option (List String) := (f k).bind Value.asStrings

/-- `URL(string: text)`: the grammar of RFC 3986, but the empty text is no URL. -/
def urlOf (text : String) : Option Uri.Reference := if text = "" then none else Uri.parse text.toList

/-- One round of the loop in `getUserInfo`: username and email have to be there, each
other field replaces its value when it is there. -/
def UserSingleton.load (u : UserSingleton) (f : Fields) : UserSingleton :=
  match getString f .username, getString f .email with
  | some username, some email =>
    { email := email
      username := username
      profilePicURL := (getString f .profilePicURL).getD u.profilePicURL
      -- miles to meters
      mapRadius := ((getDouble f .mapRadius).map (fun radius => radius.mul (.fin 1609))).getD
        u.mapRadius
      totalPlaylistsCreated := (getInt f .totalPlaylistsCreated).getD u.totalPlaylistsCreated
      totalPlaylistsFound := (getInt f .totalPlaylistsFound).getD u.totalPlaylistsFound }
  | _, _ => u

/-- A device on which the map has appeared for the user with the given document. -/
def Device.atMap (user : User) (f : Fields) : Device :=
  { Device.launched with
    currentUser := some user
    mapShown := true
    sharedUserInfo := UserSingleton.reset.load f }

namespace MapVC

/-! ### The user's data -/

def getUserInfo : Action :=
  andThen (share (fun _ => .reset)) (fun d =>
    match d.currentUser with
    | some user => issue (.getUserInfo user.email) d
    | none => crash d)

def getUserInfoReply (reply : Except String (List Doc)) : Action :=
  orAlert reply (fun docs => share (fun u => docs.foldl (fun u doc => u.load doc.data) u))

def viewWillAppear : Action :=
  andThen (modify (fun d => { d with mapShown := true })) getUserInfo

/-! ### Pins -/

/-- The annotation of a playlist that has all that an annotation needs. -/
def annotationOf (f : Fields) : Option Annotation :=
  match getString f .title, getString f .author, getDouble f .latitude, getDouble f .longitude with
  | some title, some author, some lat, some long => some ⟨title, author, ⟨lat, long⟩⟩
  | _, _, _, _ => none

def addAnnotation (map : VC) (a : Annotation) : Action :=
  modify (fun d =>
    { d with annotations := Function.update d.annotations map (d.annotations map ++ [a]) })

def addStaticAnnotations (map : VC) : Action := issue (.addStaticAnnotations map)

def addStaticAnnotationsReply (map : VC) (reply : Except String (List Doc)) : Action :=
  orAlert reply (forEach (fun doc =>
    match annotationOf doc.data with
    | some a => addAnnotation map a
    | none => skip))

def addUserAnnotations (map : VC) : Action := issue (.addUserAnnotations map)

/-- One round of the loop in `addUserAnnotations`: an old playlist is deleted, another
one gets its pin when it lies within the map radius. -/
def addUserAnnotation (P : Platform) (map : VC) (now : ℤ) (doc : Doc) : Action :=
  match getTimestamp doc.data .date with
  | some dateUploaded =>
    if 7 < P.days dateUploaded now then issue (.deleteOldPlaylist doc.id)
    else
      match annotationOf doc.data with
      | some a => fun d =>
        match d.userLocation with
        | some location =>
          if (P.distance location a.coordinate).le d.sharedUserInfo.mapRadius then
            addAnnotation map a d
          else skip d
        | none => makeAlert "Error" "Error in displaying map annotations within radius" d
      | none => skip
  | none => skip

def addUserAnnotationsReply (P : Platform) (map : VC) (now : ℤ)
    (reply : Except String (List Doc)) : Action :=
  orAlert reply (forEach <| addUserAnnotation P map now)

def deleteOldPlaylistReply (reply : Except String Unit) : Action := orAlert reply (fun _ => skip)

def updateAnnotations (map : VC) : Action :=
  andThen (modify (fun d => { d with annotations := Function.update d.annotations map [] }))
    (andThen (addStaticAnnotations map) (addUserAnnotations map))

def viewDidLoad (map : VC) : Action :=
  andThen (addStaticAnnotations map) (addUserAnnotations map)

def zoomToLatestLoc (map : VC) (coord : Coordinate) : Action :=
  andThen (updateAnnotations map) (modify (fun d =>
    { d with
      region := Function.update d.region map
        (some ⟨coord, d.sharedUserInfo.mapRadius, d.sharedUserInfo.mapRadius⟩) }))

/-- `locationManager(_:didUpdateLocations:)` -/
def didUpdateLocations (map : VC) : List Coordinate → Action
  | [] => skip
  | latestLoc :: _ => zoomToLatestLoc map latestLoc

/-! ### The picture of a pin -/

/-- `mapView(_:viewFor:)` for an annotation at the given coordinate. -/
def viewFor (pin : ℕ) (p : Coordinate) : Action := issue (.viewForPlaylist pin p)

def viewForPlaylistReply (pin : ℕ) (reply : Except String (List Doc)) : Action :=
  orAlert reply (forEach (fun doc =>
    match getString doc.data .email with
    | some email => issue (.viewForUserInfo pin email)
    | none => skip))

def showPicture (P : Platform) (pin : ℕ) (url : String) : Action :=
  match urlOf url with
  | none => crash
  | some _ =>
    match P.contents url with
    | .unavailable => skip
    | .noImage => crash
    | .image => modify (fun d => { d with pinImages := d.pinImages ++ [(pin, url)] })

def viewForUserInfoReply (P : Platform) (pin : ℕ) (reply : Except String (List Doc)) : Action :=
  orAlert reply (forEach (fun doc =>
    match getString doc.data .profilePicURL with
    | some profilePicURL => showPicture P pin profilePicURL
    | none => skip))

/-! ### Taps -/

def defaultLink : String :=
  "https://open.spotify.com/playlist/4GLAacEIQe2N4Wa3p1jGFU?si=ElxTEduuSiiuPc_niVpKUQ"

/-- `doc.get("spotifyLink") ?? ..` -/
def linkOf (f : Fields) : Value := (f .spotifyLink).getD (.string defaultLink)

/-- Open the link in Spotify: `link as! String` and `url!` must not fail. -/
def openLink (link : Value) : Action := fun d =>
  if d.spotifyInstalled then
    match link with
    | .string text =>
      match urlOf text with
      | some _ => modify (fun d => { d with opened := d.opened ++ [text] }) d
      | none => crash d
    | _ => crash d
  else makeAlert "Spotify Required" "Please download and install Spotify from the AppStore!" d

def markFound (coll : CollectionName) (doc : Doc) : Action := fun d =>
  match getStrings doc.data .hasFound with
  | some hasFound =>
    if hasFound.contains d.sharedUserInfo.email then skip d
    else
      issue (.storeHasFound coll doc.id (hasFound ++ [d.sharedUserInfo.email])
        d.sharedUserInfo.email) d
  | none => skip d

/-- One round of the loop in `checkMasterPlaylists` and `checkUserPlaylists`. -/
def checkPlaylist (coll : CollectionName) (doc : Doc) : Action :=
  andThen (markFound coll doc) (openLink (linkOf doc.data))

def checkMasterPlaylists (p : Coordinate) : Action := issue (.checkPlaylists .masterPlaylists p)

def checkUserPlaylists (p : Coordinate) : Action := issue (.checkPlaylists .userPlaylists p)

/-- The handler of the query in `checkMasterPlaylists` and in `checkUserPlaylists`: the
two are the same but for the collection. -/
def checkPlaylistsReply (coll : CollectionName) (reply : Except String (List Doc)) : Action :=
  orAlert reply (forEach (checkPlaylist coll))

def storeHasFoundReply (currUserEmail : String) (reply : Except String Unit) : Action :=
  orAlert reply (fun _ => issue (.foundUserInfo currUserEmail))

def foundUserInfoReply (reply : Except String (List Doc)) : Action :=
  orAlert reply (forEach (fun doc d =>
    issue (.storeFound doc.id (d.sharedUserInfo.totalPlaylistsFound + 1)) d))

def storeFoundReply (reply : Except String Unit) : Action :=
  orAlert reply (fun _ =>
    share (fun u => { u with totalPlaylistsFound := u.totalPlaylistsFound + 1 }))

/-- `mapView(_:annotationView:calloutAccessoryControlTapped:)` -/
def calloutTapped (p : Coordinate) : Action :=
  andThen (checkMasterPlaylists p) (checkUserPlaylists p)

end MapVC

namespace AddPlaylistVC

def spotify : String := "https://open.spotify.com"

/-- `linkTextField.text!.contains("https://open.spotify.com")` -/
def acceptsLink (link : String) : Bool := hasInfix spotify.toList link.toList

def addPlaylistClicked (vc : VC) : Action := fun d =>
  let author := d.sharedUserInfo.username
  let userEmail := d.sharedUserInfo.email
  let title := d.text vc .titleTextField
  let link := d.text vc .linkTextField
  if title ≠ "" ∧ link ≠ "" then
    if acceptsLink link then
      andThen (issue (.addPlaylist title author userEmail (d.chosen vc) link))
        (issue (.createdUserInfo d.sharedUserInfo.email
          (d.sharedUserInfo.totalPlaylistsCreated + 1))) d
    else makeAlert "Error" "Please enter valid Spotify Playlist Link." d
  else skip d

def addPlaylistReply : Except String Unit → Action
  | .ok _ => skip
  | .error _ => makeAlert "Error" "Could not store playlist in database"

def createdUserInfoReply (totalPlaylistsCreated : ℤ) : Except String (List Doc) → Action
  | .ok docs =>
    if docs.length = 1 then
      forEach (fun doc => issue (.storeCreated doc.id totalPlaylistsCreated)) docs
    else skip
  | .error _ => skip

def storeCreatedReply (reply : Except String Unit) : Action :=
  orAlert reply (fun _ =>
    share (fun u => { u with totalPlaylistsCreated := u.totalPlaylistsCreated + 1 }))

/-- `mapLongPressed`, at the beginning of the gesture. -/
def mapLongPressed (vc : VC) (coords : Coordinate) : Action :=
  andThen (modify (fun d => { d with chosen := Function.update d.chosen vc coords }))
    (MapVC.addAnnotation vc ⟨"Playlist will be placed here!", "tap again to replace", coords⟩)

end AddPlaylistVC

end SpotiFriend
