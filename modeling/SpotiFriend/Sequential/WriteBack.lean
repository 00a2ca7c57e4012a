import SpotiFriend.Async.Sequential
import SpotiFriend.Sequential.OneToOne
import SpotiFriend.Spec.Actions

/-!
# Writing a field back

Seven places of the code change one field of the user's document in the same way: a
query for the user's email, then a merging write to the document that it finds, and
when that is done, for most of them, the same change of the shared user information.
`WriteBack` lists them, and what they have in common is proved once: `resume_query`,
`exec_store`, `resume_store`, and `writeBack_settles` for the whole.
-/

namespace SpotiFriend

open Async SpotiFriend.Action Store

/-- The changes of one field, each with what its closures capture. -/
inductive WriteBack
  | email (vc : VC)
  | password (vc : VC)
  | username (vc : VC)
  | radius (vc : VC)
  | picture (imgURL : String)
  | created (totalPlaylistsCreated : ℤ)
  | found

namespace WriteBack

def query : WriteBack → String → Request
  | email vc, u => .emailUserInfo vc u
  | password vc, u => .passwordUserInfo vc u
  | username vc, u => .usernameUserInfo vc u
  | radius vc, u => .radiusUserInfo vc u
  | picture imgURL, u => .pictureUserInfo u imgURL
  | created n, u => .createdUserInfo u n
  | found, u => .foundUserInfo u

/-- The write that the query's handler issues on the device `d` for the document `id`. -/
def store : WriteBack → ℕ → Device → Request
  | email vc, id, d => .storeEmail id (d.text vc .desiredTextField)
  | password vc, id, d => .storePassword id (d.text vc .desiredTextField)
  | username vc, id, d => .storeUsername vc id (d.text vc .desiredTextField)
  | radius vc, id, d => .storeRadius vc id (SettingsVC.radiusOf (d.text vc .mapRadiusTextField))
  | picture imgURL, id, _ => .storePicture id imgURL
  | created n, id, _ => .storeCreated id n
  | found, id, d => .storeFound id (d.sharedUserInfo.totalPlaylistsFound + 1)

def field : WriteBack → Field
  | email _ => .email
  | password _ => .password
  | username _ => .username
  | radius _ => .mapRadius
  | picture _ => .profilePicURL
  | created _ => .totalPlaylistsCreated
  | found => .totalPlaylistsFound

def value : WriteBack → Device → Value
  | email vc, d => .string (d.text vc .desiredTextField)
  | password vc, d => .string (d.text vc .desiredTextField)
  | username vc, d => .string (d.text vc .desiredTextField)
  | radius vc, d => .number (SettingsVC.radiusOf (d.text vc .mapRadiusTextField))
  | picture imgURL, _ => .string imgURL
  | created n, _ => .int n
  | found, d => .int (d.sharedUserInfo.totalPlaylistsFound + 1)

def share : WriteBack → Device → UserSingleton → UserSingleton
  | email _, _, u => u
  | password _, _, u => u
  | username vc, d, u => { u with username := d.text vc .desiredTextField }
  | radius vc, d, u =>
    { u with mapRadius := (SettingsVC.radiusOf (d.text vc .mapRadiusTextField)).mul (.fin 1609) }
  | picture imgURL, _, u => { u with profilePicURL := imgURL }
  | created _, _, u => { u with totalPlaylistsCreated := u.totalPlaylistsCreated + 1 }
  | found, _, u => { u with totalPlaylistsFound := u.totalPlaylistsFound + 1 }

def data (k : WriteBack) (d : Device) : Dict := [(k.field, .value (k.value d))]

def rewrite (k : WriteBack) (d : Device) (v : Login) : Login :=
  (if .email = k.field then some (k.value d) else v.1,
    if .password = k.field then some (k.value d) else v.2)

variable {P : Platform} {b : Backend} {d : Device} {u : String} {id : ℕ} (k : WriteBack)

theorem merge_data (m : ℤ) (f : Fields) (k' : Field) : (k.data d).merge m (some f) k' =
    if k' = k.field then some (k.value d) else f k' := by
  rw [Dict.merge_some, data, Dict.fields_cons, Dict.fields_nil]
  split <;> rfl

theorem documentLogin_data {m : ℤ} {v : Login} (hv : documentLogin b id = some v) :
    documentLogin ((Operation.setData .userInfo id (k.data d)).exec P m b).1 =
      Function.update (documentLogin b) id (some (k.rewrite d v)) := by
  obtain ⟨f, hf, rfl⟩ := documentLogin_eq_some.mp hv
  rw [documentLogin_setData, Backend.field, Backend.field, hf, rewrite, ← merge_data k m,
    ← merge_data k m]
  rfl

theorem exec_query (m : ℤ) : ((app P).exec (k.query u) m b).1 = b := by cases k <;> rfl

theorem exec_store (m : ℤ) : ((app P).exec (k.store id d) m b).1 =
    ((Operation.setData .userInfo id (k.data d)).exec P m b).1 := by cases k <;> rfl

/-- The query's handler issues a write to the document that was found. -/
theorem resume_query {docs : List Doc} (hdocs : b.getDocuments (.userInfo u) = docs)
    (hone : docs.length ≤ 1) (m m' : ℤ) :
    (app P).resume (k.query u) m ((app P).exec (k.query u) m' b).2 d =
      (d, docs.map (fun doc => k.store doc.id d)) := by
  match docs with
  | [] => cases k <;> simp [query, resume, handler, Operation.exec, hdocs] <;> rfl
  | [doc] =>
    have hloop : (app P).resume (k.query u) m ((app P).exec (k.query u) m' b).2 d =
        forEach (fun doc d => issue (k.store doc.id d) d) [doc] d := by
      cases k <;> simp only [query, resume, handler, Operation.exec, hdocs] <;> rfl
    rw [hloop, forEach, andThen]
    split <;> rfl
  | _ :: _ :: _ => simp at hone

/-- When the write is done, the shared user information changes too. -/
theorem resume_store (m m' : ℤ) (d' : Device) :
    (app P).resume (k.store id d) m ((app P).exec (k.store id d) m' b).2 d' =
      ({ d' with sharedUserInfo := k.share d' d'.sharedUserInfo }, []) := by cases k <;> rfl

theorem resume_query_error (m : ℤ) (e : String) :
    ∃ l, (app P).resume (k.query u) m (.error e) d = ({ d with alerts := l }, []) := by
  cases k <;> exact ⟨_, rfl⟩

theorem resume_store_error (id : ℕ) (d : Device) (m : ℤ) (e : String) (d' : Device) :
    ∃ l, (app P).resume (k.store id d) m (.error e) d' = ({ d' with alerts := l }, []) := by
  cases k <;> exact ⟨_, rfl⟩

end WriteBack

/-! ### From the query to the end -/

/-- What a write-back for the email `u` leaves in the services and in the shared user
information: the document is found and written to, or not. -/
inductive WritesBack (P : Platform) (may : Request → Bool → Prop) (k : WriteBack) (u : String)
    (d : Device) (b : Backend) : Backend → UserSingleton → Prop
  | written (id : ℕ) (m : ℤ) (found : b.field .userInfo id .email = some (.string u))
      (asked : may (k.query u) true) (stored : may (k.store id d) true) :
      WritesBack P may k u d b ((Operation.setData .userInfo id (k.data d)).exec P m b).1
        (k.share d d.sharedUserInfo)
  | left (missed : may (k.query u) false ∨
      (∀ id, b.field .userInfo id .email ≠ some (.string u)) ∨
      ∃ id, b.field .userInfo id .email = some (.string u) ∧ may (k.store id d) false) :
      WritesBack P may k u d b b d.sharedUserInfo

variable {P : Platform} {may : Request → Bool → Prop} {b : Backend} {l : ℕ → Device} {c : ℕ}
  {d : Device} {ls : List Label} {s' : State} {u : String} {k : WriteBack}

theorem query_cases (hkeyed : Keyed Prod.fst (documentLogin b)) (u : String) :
    (b.getDocuments (.userInfo u) = [] ∧ ∀ id, b.field .userInfo id .email ≠ some (.string u)) ∨
    ∃ id f, b.getDocuments (.userInfo u) = [⟨id, f⟩] ∧ b.doc? .userInfo id = some f ∧
      f .email = some (.string u) := by
  by_cases h : ∃ id f, b.doc? .userInfo id = some f ∧ f .email = some (.string u)
  · obtain ⟨id, f, hf, he⟩ := h
    refine Or.inr ⟨id, f, ?_, hf, he⟩
    refine Collection.select_eq_singleton hf (Query.holds_userInfo.mpr he) (fun id' f' hf' hq => ?_)
    exact hkeyed id' id _ _ (documentLogin_eq_some.mpr ⟨f', hf', rfl⟩)
      (documentLogin_eq_some.mpr ⟨f, hf, rfl⟩) ((Query.holds_userInfo.mp hq).trans he.symm)
  · refine Or.inl ⟨?_, fun id he => ?_⟩
    · refine Collection.select_eq_nil (fun id f hf => Bool.eq_false_iff.mpr (fun hq => h ?_))
      exact ⟨id, f, hf, Query.holds_userInfo.mp hq⟩
    · obtain ⟨f, hf, he⟩ := Option.bind_eq_some_iff.mp he
      exact h ⟨id, f, hf, he⟩

/-- **A write-back by itself**, with every outcome of its two calls. -/
theorem writeBack_settles (hkeyed : Keyed Prod.fst (documentLogin b))
    (h : Completes (app P) may (running b l c (d, [k.query u])) ls s') :
    ∃ b' d', s' = running b' l c (d', []) ∧ d'.currentUser = d.currentUser ∧
      d'.mapShown = d.mapShown ∧ WritesBack P may k u d b b' d'.sharedUserInfo := by
  obtain ⟨-, reply, b₁, m, ls₁, hasked, h₁⟩ := h.call
  cases hasked with
  | failed e hmay =>
    obtain ⟨l', hresume⟩ := k.resume_query_error (P := P) (u := u) (d := d) m e
    rw [hresume] at h₁
    obtain rfl := h₁.done
    exact ⟨_, _, rfl, rfl, rfl, .left (.inl hmay)⟩
  | done m' hmay =>
    rw [k.exec_query] at h₁
    rcases query_cases hkeyed u with ⟨hnone, hmissing⟩ | ⟨id, f, hone, hf, hemail⟩
    · rw [k.resume_query hnone (Nat.zero_le _)] at h₁
      obtain rfl := h₁.done
      exact ⟨_, _, rfl, rfl, rfl, .left (.inr (.inl hmissing))⟩
    · have hfield : b.field .userInfo id .email = some (.string u) := by
        rw [Backend.field, hf]
        exact hemail
      rw [k.resume_query hone (Nat.le_refl _)] at h₁
      obtain ⟨-, reply, b₂, m₂, ls₂, hstored, h₂⟩ := h₁.call
      cases hstored with
      | done m' hmay' =>
        rw [k.exec_store, k.resume_store] at h₂
        obtain rfl := h₂.done
        exact ⟨_, _, rfl, rfl, rfl, .written id m' hfield hmay hmay'⟩
      | failed e hmay' =>
        obtain ⟨l', hresume⟩ := k.resume_store_error (P := P) id d m₂ e d
        rw [hresume] at h₂
        obtain rfl := h₂.done
        exact ⟨_, _, rfl, rfl, rfl, .left (.inr (.inr ⟨id, hfield, hmay'⟩))⟩

/-! ### A write-back as one strand of an operation -/

namespace WriteBack

variable {d' : Device} (k)

theorem store_congr (htext : d'.text = d.text) (hshared : d'.sharedUserInfo = d.sharedUserInfo)
    (id : ℕ) : k.store id d' = k.store id d := by
  cases k <;> simp only [store, htext, hshared]

theorem share_congr (htext : d'.text = d.text) : k.share d' = k.share d := by
  funext u
  cases k <;> simp only [share, htext]

theorem exec_query_congr {b' : Backend} (h : b'.firestore .userInfo = b.firestore .userInfo) (m : ℤ) :
    ((app P).exec (k.query u) m b').2 = ((app P).exec (k.query u) m b).2 := by
  have hdocs : b'.getDocuments (.userInfo u) = b.getDocuments (.userInfo u) :=
    Backend.getDocuments_congr h
  cases k <;> exact congrArg Except.ok hdocs

theorem exec_store_congr (b' : Backend) (m : ℤ) {id : ℕ} :
    ((app P).exec (k.store id d) m b').2 = ((app P).exec (k.store id d) m b).2 := by
  cases k <;> rfl

end WriteBack

/-- Where a write-back on the device `d` stands: the `userInfo` documents, the shared user
information, and the job in flight. -/
inductive WritingBack (P : Platform) (may : Request → Bool → Prop) (k : WriteBack) (u : String)
    (d : Device) (b : Backend) (c : ℕ) : Collection Fields → UserSingleton → Option Job → Prop
  | asking : WritingBack P may k u d b c (b.firestore .userInfo) d.sharedUserInfo
      (some ⟨c, k.query u, none⟩)
  | asked (m : ℤ) (hasked : may (k.query u) true) :
      WritingBack P may k u d b c (b.firestore .userInfo) d.sharedUserInfo
        (some ⟨c, k.query u, some ((app P).exec (k.query u) m b).2⟩)
  | unasked (e : String) (hasked : may (k.query u) false) :
      WritingBack P may k u d b c (b.firestore .userInfo) d.sharedUserInfo
        (some ⟨c, k.query u, some (.error e)⟩)
  | storing (id : ℕ) (hasked : may (k.query u) true)
      (hfound : b.field .userInfo id .email = some (.string u)) :
      WritingBack P may k u d b c (b.firestore .userInfo) d.sharedUserInfo
        (some ⟨c, k.store id d, none⟩)
  | stored (id : ℕ) (m : ℤ) (hasked : may (k.query u) true)
      (hfound : b.field .userInfo id .email = some (.string u)) (hstored : may (k.store id d) true) :
      WritingBack P may k u d b c ((b.firestore .userInfo).upsert id ((k.data d).merge m))
        d.sharedUserInfo (some ⟨c, k.store id d, some ((app P).exec (k.store id d) m b).2⟩)
  | unstored (id : ℕ) (e : String) (hfound : b.field .userInfo id .email = some (.string u))
      (hstored : may (k.store id d) false) :
      WritingBack P may k u d b c (b.firestore .userInfo) d.sharedUserInfo
        (some ⟨c, k.store id d, some (.error e)⟩)
  | written (id : ℕ) (m : ℤ) (hasked : may (k.query u) true)
      (hfound : b.field .userInfo id .email = some (.string u)) (hstored : may (k.store id d) true) :
      WritingBack P may k u d b c ((b.firestore .userInfo).upsert id ((k.data d).merge m))
        (k.share d d.sharedUserInfo) none
  | left (hmissed : may (k.query u) false ∨
      (∀ id, b.field .userInfo id .email ≠ some (.string u)) ∨
      ∃ id, b.field .userInfo id .email = some (.string u) ∧ may (k.store id d) false) :
      WritingBack P may k u d b c (b.firestore .userInfo) d.sharedUserInfo none

/-- What a move of a strand leaves alone: who is signed in, the text fields, the accounts and
the other collections. -/
structure Untouched (l : ℕ → Device) (c : ℕ) (d d' : Device) (st st' : Backend)
    (locals' : ℕ → Device) : Prop where
  locals : locals' = Function.update l c d'
  currentUser : d'.currentUser = d.currentUser
  mapShown : d'.mapShown = d.mapShown
  text : d'.text = d.text
  accounts : st'.accounts = st.accounts

/-- A move of a write-back touches the `userInfo` documents and the shared user information. -/
theorem WritingBack.advance (hkeyed : Keyed Prod.fst (documentLogin b)) {st st' : Backend}
    {d' : Device} {locals' : ℕ → Device} {j : Job} {js : List Job} (htext : d'.text = d.text)
    (h : WritingBack P may k u d b c (st.firestore .userInfo) d'.sharedUserInfo (some j))
    (move : Advance (app P) may st (Function.update l c d') j st' locals' js) :
    ∃ x d'', js = x.toList ∧ Untouched l c d' d'' st st' locals' ∧
      (∀ coll, coll ≠ .userInfo → st'.firestore coll = st.firestore coll) ∧
      WritingBack P may k u d b c (st'.firestore .userInfo) d''.sharedUserInfo x := by
  generalize hF : st.firestore .userInfo = F at h
  generalize hu : d'.sharedUserInfo = u' at h
  have hsame : Untouched l c d' d' st st (Function.update l c d') := ⟨rfl, rfl, rfl, rfl, rfl⟩
  cases h with
  | asking =>
    obtain ⟨reply, hcall, rfl, rfl⟩ := move.of_call
    cases hcall with
    | done m hmay =>
      rw [k.exec_query_congr hF, k.exec_query]
      exact ⟨some _, d', rfl, hsame, fun _ _ => rfl, by rw [hF, hu]; exact .asked m hmay⟩
    | failed e hmay =>
      exact ⟨some _, d', rfl, hsame, fun _ _ => rfl, by rw [hF, hu]; exact .unasked e hmay⟩
  | asked m hasked =>
    obtain ⟨m', -, rfl, rfl, rfl⟩ := move.of_deliver
    rcases query_cases hkeyed u with ⟨hnone, hmissing⟩ | ⟨id, f, hone, hf, hemail⟩
    · rw [k.resume_query hnone (Nat.zero_le _)]
      exact ⟨none, d', rfl, hsame, fun _ _ => rfl,
        by rw [hF, hu]; exact .left (.inr (.inl hmissing))⟩
    · have hfield : b.field .userInfo id .email = some (.string u) := by
        rw [Backend.field, hf]
        exact hemail
      rw [k.resume_query hone (Nat.le_refl _)]
      refine ⟨some ⟨c, k.store id d, none⟩, d', ?_, hsame, fun _ _ => rfl,
        by rw [hF, hu]; exact .storing id hasked hfield⟩
      rw [← k.store_congr htext hu]
      rfl
  | unasked e hasked =>
    obtain ⟨m', -, rfl, rfl, rfl⟩ := move.of_deliver
    obtain ⟨l', hresume⟩ := k.resume_query_error (P := P) (u := u) (d := d') m' e
    rw [hresume]
    exact ⟨none, _, rfl, ⟨rfl, rfl, rfl, rfl, rfl⟩, fun _ _ => rfl,
      by rw [hF, hu]; exact .left (.inl hasked)⟩
  | storing id hasked hfound =>
    obtain ⟨reply, hcall, rfl, rfl⟩ := move.of_call
    cases hcall with
    | done m hmay =>
      rw [k.exec_store_congr (b := b) st, k.exec_store]
      refine ⟨some _, d', rfl, ⟨rfl, rfl, rfl, rfl, rfl⟩, fun coll hcoll => ?_, ?_⟩
      · show Function.update st.firestore .userInfo _ coll = st.firestore coll
        rw [Function.update_of_ne hcoll]
      · have hwritten : ((Operation.setData .userInfo id (k.data d)).exec P m st).1.firestore .userInfo =
            (b.firestore .userInfo).upsert id ((k.data d).merge m) := by
          rw [← hF, Operation.exec, Backend.setCollection_firestore, Function.update_self]
        rw [hwritten, hu]
        exact .stored id m hasked hfound hmay
    | failed e hmay =>
      exact ⟨some _, d', rfl, hsame, fun _ _ => rfl, by rw [hF, hu]; exact .unstored id e hfound hmay⟩
  | stored id m hasked hfound hstored =>
    obtain ⟨m', -, rfl, rfl, rfl⟩ := move.of_deliver
    rw [k.resume_store]
    refine ⟨none, _, rfl, ⟨rfl, rfl, rfl, rfl, rfl⟩, fun _ _ => rfl, ?_⟩
    show WritingBack P may k u d b c _ (k.share d' d'.sharedUserInfo) none
    rw [hF, hu, k.share_congr htext]
    exact .written id m hasked hfound hstored
  | unstored id e hfound hstored =>
    obtain ⟨m', -, rfl, rfl, rfl⟩ := move.of_deliver
    obtain ⟨l', hresume⟩ := k.resume_store_error (P := P) id d m' e d'
    rw [hresume]
    exact ⟨none, _, rfl, ⟨rfl, rfl, rfl, rfl, rfl⟩, fun _ _ => rfl,
      by rw [hF, hu]; exact .left (.inr (.inr ⟨id, hfound, hstored⟩))⟩

end SpotiFriend
