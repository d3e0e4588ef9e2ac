import Mathlib
import FeedClient.Proofs.Session
import FeedClient.Settings
import FeedClient.Snapshot

/-!
# Snapshots and settings as text

The compact text of every snapshot of the store and of every set of client settings reads back
as the value written. Each record is given by the members its JSON value holds
(`Scan.Member`), and `Scan.readsBack_record` turns a list of members that rebuild the record
into the round trip; the nested records (session, profile, alert, storage backend) read back
the same way one level down.

The formats differ from record to record: a session's one member is required; every member
of a profile defaults, and its counters are also read under their long names; an alert
leaves out a request id it does not have, which then defaults; every member of the settings
defaults, the clear policy is written by name, the timeout may be `null`, and the storage
backend is an object tagged by its `backend` member.

Main results:

- Theorem `Snapshot.readText_compact`: a snapshot reads back from its compact text.
- Theorem `Settings.readText_compact`: settings read back from their compact text.
- Theorem `Profile.readText_fieldsNamed`: a profile reads back whichever name each counter is
  written under.
- Theorem `stored_state_text_round_trips`: the three together.
-/

namespace FeedClient

open Json Scan

namespace Profile

variable (p : Profile)

/-- The member writing the id under `key`. -/
def idMember (key : String) (h : slot key = some 0) : Member form scanField 0 where
  key := key
  value := .number (Number.ofInt64 p.id)
  slot := 0
  set q := { q with id := p.id }
  slot_eq := h
  reads q := (readsBack_int64 p.id).map fun x => ({ q with id := x } : Profile)

/-- The member writing the login under `key`. -/
def loginMember (key : String) (h : slot key = some 1) : Member form scanField 0 where
  key := key
  value := .str p.login
  slot := 1
  set q := { q with login := p.login }
  slot_eq := h
  reads q := (readsBack_text _ p.login).map fun x => ({ q with login := x } : Profile)

/-- The member writing the display name under `key`. -/
def nameMember (key : String) (h : slot key = some 2) : Member form scanField 0 where
  key := key
  value := .str p.name
  slot := 2
  set q := { q with name := p.name }
  slot_eq := h
  reads q := (readsBack_text _ p.name).map fun x => ({ q with name := x } : Profile)

/-- The member writing the photo URL under `key`. -/
def photoMember (key : String) (h : slot key = some 3) : Member form scanField 0 where
  key := key
  value := .str p.photoUrl
  slot := 3
  set q := { q with photoUrl := p.photoUrl }
  slot_eq := h
  reads q := (readsBack_text _ p.photoUrl).map fun x => ({ q with photoUrl := x } : Profile)

/-- The member writing the biography under `key`. -/
def bioMember (key : String) (h : slot key = some 4) : Member form scanField 0 where
  key := key
  value := .str p.bio
  slot := 4
  set q := { q with bio := p.bio }
  slot_eq := h
  reads q := (readsBack_text _ p.bio).map fun x => ({ q with bio := x } : Profile)

/-- The member writing how many users the profile follows under `key`. -/
def followingMember (key : String) (h : slot key = some 5) : Member form scanField 0 where
  key := key
  value := .ofNat64 p.following
  slot := 5
  set q := { q with following := p.following }
  slot_eq := h
  reads q := (readsBack_nat64 p.following).map fun x => ({ q with following := x } : Profile)

/-- The member writing how many users follow the profile under `key`. -/
def followersMember (key : String) (h : slot key = some 6) : Member form scanField 0 where
  key := key
  value := .ofNat64 p.followers
  slot := 6
  set q := { q with followers := p.followers }
  slot_eq := h
  reads q := (readsBack_nat64 p.followers).map fun x => ({ q with followers := x } : Profile)

/-- The members of a profile in declaration order, the counters under the keys given. -/
def writtenAs (followingKey followersKey : String) (hf : slot followingKey = some 5)
    (hg : slot followersKey = some 6) : List (Member form scanField 0) :=
  [p.idMember "id" rfl, p.loginMember "login" rfl, p.nameMember "name" rfl,
    p.photoMember "photo_url" rfl, p.bioMember "bio" rfl, p.followingMember followingKey hf,
    p.followersMember followersKey hg]

/-- The fields of a profile in declaration order, as the record is written, with the two
counters under the keys given. -/
def fieldsNamed (followingKey followersKey : String) : Fields :=
  [("id", .number (Number.ofInt64 p.id)), ("login", .str p.login), ("name", .str p.name),
    ("photo_url", .str p.photoUrl), ("bio", .str p.bio), (followingKey, .ofNat64 p.following),
    (followersKey, .ofNat64 p.followers)]

/-- A profile written in declaration order reads back whatever keys name its counters, as long
as they are keys of the counters. -/
theorem readText_fieldsNamed {followingKey followersKey : String}
    (hf : slot followingKey = some 5) (hg : slot followersKey = some 6) :
    readText (Value.object (p.fieldsNamed followingKey followersKey)).compact = .ok p :=
  runDocument_of_readsBack
    (readsBack_record (p.writtenAs followingKey followersKey hf hg)
      (by show [0, 1, 2, 3, 4, 5, 6].Nodup; decide) (by cases p; rfl) rfl)
    (by decide)

/-- A profile reads back from its value, its counters under their short names. -/
theorem readsBack_scan : ReadsBack scan p.toValue p 1 :=
  readsBack_record (p.writtenAs "following" "followers" rfl rfl)
    (by show [0, 1, 2, 3, 4, 5, 6].Nodup; decide) (by cases p; rfl) rfl

end Profile

namespace Alert

variable (a : Alert)

/-- The member writing the type. -/
def kindMember : Member form scanField 0 where
  key := "type"
  value := .str a.kind
  slot := 0
  set b := { b with kind := a.kind }
  slot_eq := rfl
  reads b := (readsBack_text _ a.kind).map fun x => ({ b with kind := x } : Alert)

/-- The member writing the message. -/
def messageMember : Member form scanField 0 where
  key := "message"
  value := .str a.message
  slot := 1
  set b := { b with message := a.message }
  slot_eq := rfl
  reads b := (readsBack_text _ a.message).map fun x => ({ b with message := x } : Alert)

/-- The member writing a request id that is present. -/
def requestIdMember (r : String) : Member form scanField 0 where
  key := "request_id"
  value := .str r
  slot := 2
  set b := { b with requestId := some r }
  slot_eq := rfl
  reads b := (readsBack_optional_text _ r).map fun x => ({ b with requestId := x } : Alert)

/-- The members of an alert's JSON value in declaration order: the request id only when
there is one. -/
def written : List (Member form scanField 0) :=
  a.kindMember :: a.messageMember :: (a.requestId.map requestIdMember).toList

/-- An alert's value is the object of its written members. -/
theorem toValue_eq : a.toValue = .object (a.written.map Member.entry) := by
  obtain ⟨kind, message, requestId⟩ := a
  cases requestId <;> rfl

/-- An alert reads back from its value, with or without a request id. -/
theorem readsBack_scan : ReadsBack scan a.toValue a 1 := by
  rw [toValue_eq]
  obtain ⟨kind, message, requestId⟩ := a
  cases requestId with
  | none => exact readsBack_record _ (by show [0, 1].Nodup; decide) rfl rfl
  | some r => exact readsBack_record _ (by show [0, 1, 2].Nodup; decide) rfl rfl

end Alert

namespace Snapshot

variable (s : Snapshot)

/-- The members of a snapshot's JSON value, in declaration order. -/
def written : List (Member form scanField 1) :=
  [{ key := "session", value := s.session.toValue, slot := 0,
     set := fun t => { t with session := s.session }, slot_eq := rfl,
     reads := fun t => (Session.readsBack_scan s.session).map
       fun x => ({ t with session := x } : Snapshot) },
   { key := "currentUser", value := s.currentUser.toValue, slot := 1,
     set := fun t => { t with currentUser := s.currentUser }, slot_eq := rfl,
     reads := fun t => (Profile.readsBack_scan s.currentUser).map
       fun x => ({ t with currentUser := x } : Snapshot) },
   { key := "isLoading", value := .bool s.isLoading, slot := 2,
     set := fun t => { t with isLoading := s.isLoading }, slot_eq := rfl,
     reads := fun t => ((readsBack_flag s.isLoading).mono (Nat.zero_le 1)).map
       fun x => ({ t with isLoading := x } : Snapshot) },
   { key := "alert", value := s.alert.toValue, slot := 3,
     set := fun t => { t with alert := s.alert }, slot_eq := rfl,
     reads := fun t => (Alert.readsBack_scan s.alert).map
       fun x => ({ t with alert := x } : Snapshot) }]

/-- A snapshot reads back from its compact text. -/
theorem readText_compact : readText s.toValue.compact = .ok s :=
  runDocument_of_readsBack
    (readsBack_record s.written (by show [0, 1, 2, 3].Nodup; decide) (by cases s; rfl) rfl)
    (by decide)

end Snapshot

namespace Settings

/-- The name of a policy reads back as the policy. -/
theorem readsBack_policy (st : Settings) (policy : ClearPolicy) :
    ReadsBack (scanField 2 st) (.str policy.name) { st with alertClearPolicy := policy } 0 := by
  cases policy with
  | typeAndMessage =>
    exact (readsBack_unitVariant (i := 0) rfl).map
      fun i => ({ st with alertClearPolicy := ClearPolicy.ofIndex i } : Settings)
  | messageOnly =>
    exact (readsBack_unitVariant (i := 1) rfl).map
      fun i => ({ st with alertClearPolicy := ClearPolicy.ofIndex i } : Settings)

/-- The written request timeout: its milliseconds, or `null`. -/
def timeoutValue : Option UInt64 → Value
  | some t => .ofNat64 t
  | none => .null

/-- A request timeout, or its absence, reads back as written. -/
theorem readsBack_timeout (st : Settings) (timeout : Option UInt64) :
    ReadsBack (scanField 4 st) (timeoutValue timeout)
      { st with requestTimeoutMs := timeout } 0 := by
  cases timeout with
  | none =>
    exact (readsBack_optional_null nat64).map
      fun x => ({ st with requestTimeoutMs := x } : Settings)
  | some t =>
    exact (readsBack_optional_nat64 t).map
      fun x => ({ st with requestTimeoutMs := x } : Settings)

/-- A backend's value is an object tagged by its `backend` member, whose other members read back as
the backend. -/
theorem backendValue_eq (b : Backend) :
    ∃ (name : String) (i : Nat) (rest : List (String × String)),
    backendValue b = .object (("backend", .string name) :: rest.map fun p => (p.1, .string p.2)) ∧
      backendNames.idxOf? name = some i ∧ (∀ p ∈ rest, p.1 ≠ "backend") ∧
      backendOfContent i (.object (rest.map fun p => (p.1, .string p.2))) = .ok b := by
  cases b with
  | file path =>
    refine ⟨"file", 0, [("path", path)], ?_, rfl, by simp, rfl⟩
    simp +decide only [backendValue, Value.obj, List.foldl, Fields.insert, ↓reduceIte]
    rfl
  | keyring service =>
    refine ⟨"keyring", 1, [("service", service)], ?_, rfl, by simp, rfl⟩
    simp +decide only [backendValue, Value.obj, List.foldl, Fields.insert, ↓reduceIte]
    rfl
  | memory => exact ⟨"memory", 2, [], rfl, rfl, by simp, rfl⟩

/-- A backend reads back from its object, tagged by its `backend` member. -/
theorem readsBack_scanBackend (b : Backend) : ReadsBack scanBackend (backendValue b) b 1 := by
  obtain ⟨name, i, rest, hv, hi, hrest, hb⟩ := backendValue_eq b
  rw [hv]
  intro c r hc hr hd
  refine ((@readsBack_tagged "backend" backendExpecting name backendNames i hi rest hrest c r hc hr
    hd).bind
    _).trans fun c₁ h₁ _ => ?_
  dsimp only
  rw [hb]
  exact Leads.refl _ h₁

/-- The members of the settings' JSON value, in declaration order. -/
def written (s : Settings) : List (Member form scanField 1) :=
  [{ key := "apiBaseUrl", value := .str s.apiBaseUrl, slot := 0,
     set := fun t => { t with apiBaseUrl := s.apiBaseUrl }, slot_eq := rfl,
     reads := fun t => ((readsBack_text _ s.apiBaseUrl).mono (Nat.zero_le 1)).map
       fun x => ({ t with apiBaseUrl := x } : Settings) },
   { key := "alertClearDelayMs", value := .ofNat64 s.alertClearDelayMs, slot := 1,
     set := fun t => { t with alertClearDelayMs := s.alertClearDelayMs }, slot_eq := rfl,
     reads := fun t => ((readsBack_nat64 s.alertClearDelayMs).mono (Nat.zero_le 1)).map
       fun x => ({ t with alertClearDelayMs := x } : Settings) },
   { key := "alertClearPolicy", value := .str s.alertClearPolicy.name, slot := 2,
     set := fun t => { t with alertClearPolicy := s.alertClearPolicy }, slot_eq := rfl,
     reads := fun t => (readsBack_policy t s.alertClearPolicy).mono (Nat.zero_le 1) },
   { key := "networkErrorMessage", value := .str s.networkErrorMessage, slot := 3,
     set := fun t => { t with networkErrorMessage := s.networkErrorMessage }, slot_eq := rfl,
     reads := fun t => ((readsBack_text _ s.networkErrorMessage).mono (Nat.zero_le 1)).map
       fun x => ({ t with networkErrorMessage := x } : Settings) },
   { key := "requestTimeoutMs", value := timeoutValue s.requestTimeoutMs, slot := 4,
     set := fun t => { t with requestTimeoutMs := s.requestTimeoutMs }, slot_eq := rfl,
     reads := fun t => (readsBack_timeout t s.requestTimeoutMs).mono (Nat.zero_le 1) },
   { key := "storage", value := backendValue s.storage, slot := 5,
     set := fun t => { t with storage := s.storage }, slot_eq := rfl,
     reads := fun t => (readsBack_scanBackend s.storage).map
       fun x => ({ t with storage := x } : Settings) }]

/-- The settings' value is the object of their written members. -/
theorem toValue_eq (s : Settings) : s.toValue = .object (s.written.map Member.entry) := by
  obtain ⟨url, delay, policy, message, timeout, storage⟩ := s
  cases timeout <;> rfl

/-- Settings read back from their compact text. -/
theorem readText_compact (s : Settings) : readText s.toValue.compact = .ok s := by
  rw [toValue_eq]
  exact runDocument_of_readsBack
    (readsBack_record s.written (by show [0, 1, 2, 3, 4, 5].Nodup; decide) (by cases s; rfl) rfl)
    (by decide)

end Settings

/-- The compact text of a snapshot and of settings reads back as the value written, whatever
its strings, integers and options hold; and a profile written under either name of each
counter reads back as the same profile. -/
theorem stored_state_text_round_trips :
    (∀ s : Snapshot, Snapshot.readText s.toValue.compact = .ok s) ∧
    (∀ s : Settings, Settings.readText s.toValue.compact = .ok s) ∧
    ∀ p : Profile, ∀ followingKey ∈ ["following", "following_count"],
      ∀ followersKey ∈ ["followers", "followers_count"],
        Profile.readText (Value.object (p.fieldsNamed followingKey followersKey)).compact =
          .ok p := by
  refine ⟨Snapshot.readText_compact, Settings.readText_compact, fun p fk hfk gk hgk => ?_⟩
  -- each accepted name is a key of its counter
  have hf : Profile.slot fk = some 5 := by
    simp only [List.mem_cons, List.not_mem_nil, or_false] at hfk
    rcases hfk with rfl | rfl <;> rfl
  have hg : Profile.slot gk = some 6 := by
    simp only [List.mem_cons, List.not_mem_nil, or_false] at hgk
    rcases hgk with rfl | rfl <;> rfl
  exact p.readText_fieldsNamed hf hg

/-- A profile with its counters under the long names reads back as written. -/
theorem profile_reads_under_count_names :
    "following_count" ∈ ["following", "following_count"] ∧
      "followers_count" ∈ ["followers", "followers_count"] ∧
      Profile.readText (Value.object ((Profile.mk (-7) "ada" "Ada" "" "" 3 12).fieldsNamed
        "following_count" "followers_count")).compact =
        .ok (Profile.mk (-7) "ada" "Ada" "" "" 3 12) :=
  ⟨by simp, by simp, stored_state_text_round_trips.2.2 _ _ (by simp) _ (by simp)⟩

end FeedClient
