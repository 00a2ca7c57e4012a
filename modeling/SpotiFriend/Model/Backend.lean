import SpotiFriend.Model.Value

/-!
# The services

The app uses three services of Firebase: Firestore with its three collections, Auth
with its accounts, and Storage with the pictures under `media/`.  `Backend` is what
they hold, `Operation` a call of one of them and `Operation.exec` what the call does
when it takes effect and what it answers.  A query gives the documents as they are at
that moment, a write is atomic, and an account keeps its email as it was given.

`Platform` collects what the code gets from elsewhere as it is: the calendar, the
distance of two points, the naming of downloads and what a picture URL leads to.
-/

namespace SpotiFriend

inductive CollectionName
  | masterPlaylists
  | userPlaylists
  | userInfo
  deriving DecidableEq

/-- `collection(c)` with its `whereField(_, isEqualTo: _)`. -/
structure Query where
  collection : CollectionName
  filters : List (Field × Value)
  deriving DecidableEq

namespace Query

def holds (q : Query) (f : Fields) : Bool := q.filters.all (fun p => f p.1 = some p.2)

def userInfo (email : String) : Query := ⟨.userInfo, [(.email, .string email)]⟩

/-- The playlists of a collection at the given coordinate. -/
def atCoordinate (coll : CollectionName) (p : Coordinate) : Query :=
  ⟨coll, [(.latitude, .number p.latitude), (.longitude, .number p.longitude)]⟩

def all (coll : CollectionName) : Query := ⟨coll, []⟩

@[simp] theorem holds_userInfo {email : String} {f : Fields} :
    (userInfo email).holds f = true ↔ f .email = some (.string email) := by
  simp [holds, userInfo]

@[simp] theorem holds_atCoordinate {coll : CollectionName} {p : Coordinate} {f : Fields} :
    (atCoordinate coll p).holds f = true ↔
      f .latitude = some (.number p.latitude) ∧ f .longitude = some (.number p.longitude) := by
  simp [holds, atCoordinate]

end Query

/-- An Auth account without its ID. -/
structure Credentials where
  email : String
  password : String
  deriving DecidableEq

/-- A user of Auth as the SDK hands it to the app. -/
structure User where
  uid : ℕ
  email : String
  deriving DecidableEq

inductive Contents
  | unavailable
  | noImage
  | image
  deriving DecidableEq

/-- What comes from outside the app and its services. -/
structure Platform where
  /-- `Calendar.current.dateComponents([.day], from:to:).day` -/
  days : ℤ → ℤ → ℤ
  /-- `CLLocation.distance(from:)` -/
  distance : Coordinate → Coordinate → Double
  /-- `Data(contentsOf:)`, read as an image -/
  contents : String → Contents
  bucket : String
  /-- The download token of an object. -/
  token : String → String

/-- The download URL of an object under `media/`. -/
def Platform.downloadURL (P : Platform) (name : String) : String :=
  "https://firebasestorage.googleapis.com/v0/b/" ++ P.bucket ++ "/o/media%2F" ++ name ++
    "?alt=media&token=" ++ P.token name

/-- A platform for the witnesses alone, not the one of the app: times in seconds, pictures that
always load, and for the distance the mere sum of the differences in degrees. -/
def Platform.sample : Platform where
  days t t' := (t' - t) / 86400
  distance
    | ⟨.fin a, .fin b⟩, ⟨.fin a', .fin b'⟩ => .fin (|a' - a| + |b' - b|)
    | _, _ => .nan
  contents _ := .image
  bucket := "spotifriend.appspot.com"
  token name := name

structure Backend where
  firestore : CollectionName → Store.Collection Fields
  accounts : Store.Collection Credentials
  /-- The names of the objects under `media/`. -/
  media : List String

namespace Backend

/-- Services that hold the given documents and accounts, and no picture. -/
def of (masterPlaylists userPlaylists userInfo : List Fields) (accounts : List Credentials) :
    Backend where
  firestore
    | .masterPlaylists => .ofList masterPlaylists
    | .userPlaylists => .ofList userPlaylists
    | .userInfo => .ofList userInfo
  accounts := .ofList accounts
  media := []

def setCollection (b : Backend) (coll : CollectionName) (C : Store.Collection Fields) : Backend :=
  { b with firestore := Function.update b.firestore coll C }

def setAccounts (b : Backend) (A : Store.Collection Credentials) : Backend :=
  { b with accounts := A }

def setMedia (b : Backend) (m : List String) : Backend := { b with media := m }

def getDocuments (b : Backend) (q : Query) : List Doc := (b.firestore q.collection).select q.holds

/-- Some account other than `uid` has the email. -/
def emailTaken (b : Backend) (uid : Option ℕ) (email : String) : Bool :=
  b.accounts.docs.any (fun a => some a.id ≠ uid && a.data.email = email)

/-- The account with this email and password. -/
def signInWith (b : Backend) (email password : String) : Option ℕ :=
  (b.accounts.docs.find? (fun a => a.data = ⟨email, password⟩)).map Store.Document.id

variable (b : Backend) (coll coll' : CollectionName) (C : Store.Collection Fields)
  (A : Store.Collection Credentials) (m : List String)

@[simp] theorem setCollection_firestore :
    (b.setCollection coll C).firestore = Function.update b.firestore coll C := rfl

@[simp] theorem setCollection_accounts : (b.setCollection coll C).accounts = b.accounts := rfl

@[simp] theorem setCollection_media : (b.setCollection coll C).media = b.media := rfl

@[simp] theorem setAccounts_firestore : (b.setAccounts A).firestore = b.firestore := rfl

@[simp] theorem setAccounts_accounts : (b.setAccounts A).accounts = A := rfl

@[simp] theorem setMedia_firestore : (b.setMedia m).firestore = b.firestore := rfl

@[simp] theorem setMedia_accounts : (b.setMedia m).accounts = b.accounts := rfl

end Backend

inductive Operation
  | getDocuments (q : Query)
  | setData (coll : CollectionName) (id : ℕ) (data : Dict)
  | addDocument (coll : CollectionName) (data : Dict)
  | deleteDocument (coll : CollectionName) (id : ℕ)
  | createUser (email password : String)
  | signIn (email password : String)
  | updateEmail (uid : ℕ) (email : String)
  | updatePassword (uid : ℕ) (password : String)
  | deleteUser (uid : ℕ)
  | putData (name : String)
  | downloadURL (name : String)
  | deleteObject (name : String)
  deriving DecidableEq

namespace Operation

@[reducible] def Answer : Operation → Type
  | .getDocuments _ => List Doc
  | .createUser _ _ => User
  | .signIn _ _ => User
  | .downloadURL _ => String
  | _ => Unit

def emailAlreadyInUse : String := "The email address is already in use by another account."

def wrongPassword : String := "The password is invalid or the user does not have a password."

def userNotFound : String :=
  "There is no user record corresponding to this identifier. The user may have been deleted."

def objectNotFound (name : String) : String := "Object media/" ++ name ++ " does not exist."

/-- What the call does at the server time `now`, and its answer. -/
def exec (P : Platform) : (o : Operation) → ℤ → Backend → Backend × Except String o.Answer
  | .getDocuments q, _, b => (b, .ok (b.getDocuments q))
  | .setData coll id data, now, b =>
    (b.setCollection coll ((b.firestore coll).upsert id (data.merge now)), .ok ())
  | .addDocument coll data, now, b =>
    (b.setCollection coll ((b.firestore coll).add (data.fields now)), .ok ())
  | .deleteDocument coll id, _, b =>
    (b.setCollection coll ((b.firestore coll).delete id), .ok ())
  | .createUser email password, _, b =>
    if b.emailTaken none email then (b, .error emailAlreadyInUse)
    else (b.setAccounts (b.accounts.add ⟨email, password⟩), .ok ⟨b.accounts.next, email⟩)
  | .signIn email password, _, b =>
    match b.signInWith email password with
    | some uid => (b, .ok ⟨uid, email⟩)
    | none => (b, .error wrongPassword)
  | .updateEmail uid email, _, b =>
    match b.accounts.get? uid with
    | some a =>
      if b.emailTaken (some uid) email then (b, .error emailAlreadyInUse)
      else (b.setAccounts (b.accounts.upsert uid (fun _ => ⟨email, a.password⟩)), .ok ())
    | none => (b, .error userNotFound)
  | .updatePassword uid password, _, b =>
    match b.accounts.get? uid with
    | some a => (b.setAccounts (b.accounts.upsert uid (fun _ => ⟨a.email, password⟩)), .ok ())
    | none => (b, .error userNotFound)
  | .deleteUser uid, _, b =>
    match b.accounts.get? uid with
    | some _ => (b.setAccounts (b.accounts.delete uid), .ok ())
    | none => (b, .error userNotFound)
  | .putData name, _, b => (b.setMedia (name :: b.media), .ok ())
  | .downloadURL name, _, b =>
    if b.media.contains name then (b, .ok (P.downloadURL name)) else (b, .error (objectNotFound name))
  | .deleteObject name, _, b =>
    if b.media.contains name then (b.setMedia (b.media.filter (· ≠ name)), .ok ())
    else (b, .error (objectNotFound name))

end Operation

end SpotiFriend
