import Aevia.Foundation.Paired
import Aevia.Foundation.Run
import Aevia.Provider.DhtProxy

/-!
# Announcements of sessions

Every node that holds a live session, its origin or a mirror, announces it in the DHT when
it starts and again at every tick until it ends. The loops of all nodes take their steps in
any order. What a loop has reported is told by its start and its own ticks and end, and the
records of the DHT are those of the attempts that got through.
-/

set_option autoImplicit false

namespace Aevia.Announce
open Aevia.Bytes Aevia.DhtProxy Aevia.Manifests Aevia.Paired Aevia.Run

inductive SessionAnnounceEvent where
  | initial
  | refresh
  | failed
  | expired
  deriving DecidableEq

abbrev Report := SessionAnnounceEvent × Option GoError

/-- What the loop selects: a tick, and the error of kad-dht if it then fails, or the end of
the session or of the process. -/
inductive Wake where
  | tick (failure : Option GoError)
  | ended

structure Announcement (PeerId : Type) where
  peer : PeerId
  sessionID : Bytes
  cidStr : Bytes
  running : Bool
  events : List Report

def Announcement.reports {PeerId : Type} (a : Announcement PeerId) (running : Bool) (r : Report) :
    Announcement PeerId :=
  { a with running := running, events := a.events++[r] }

structure Network (Cid PeerId : Type) where
  announcements : List (Announcement PeerId)
  records : List (Cid × PeerId)

inductive Action (PeerId : Type) where
  | start (peer : PeerId) (sessionID : Bytes) (failure : Option GoError)
  | wake (i : ℕ) (w : Wake)

section Steps
variable {Cid PeerId : Type} (dhtOf : PeerId → Dht Cid PeerId)

def provide (d : Dht Cid PeerId) (cidStr : Bytes) (failure : Option GoError) : Except GoError Cid :=
  match d.ipfs with
  | none => .error (.new "dht: not initialized")
  | some kad =>
    match kad.parse cidStr with
    | .error e => .error (.wrap "dht: parse cid %q: %w" [.text cidStr] e)
    | .ok c =>
      match failure with
      | some e => .error (.wrap "dht: provide %s: %w" [.text cidStr] e)
      | none => .ok c

def report (success : SessionAnnounceEvent) : Except GoError Cid → Report
  | .ok _ => (success,none)
  | .error e => (.failed,some e)

def recorded (peer : PeerId) : Except GoError Cid → List (Cid × PeerId)
  | .ok c => [(c,peer)]
  | .error _ => []

def start (n : Network Cid PeerId) (peer : PeerId) (sessionID : Bytes) (failure : Option GoError) :
    Network Cid PeerId :=
  match sessionCidOf sessionID with
  | .error _ => n
  | .ok cidStr =>
    let provided := provide (dhtOf peer) cidStr failure
    { announcements := n.announcements++[⟨peer,sessionID,cidStr,true,[report .initial provided]⟩],
      records := n.records++recorded peer provided }

def wake (n : Network Cid PeerId) (i : ℕ) (w : Wake) : Network Cid PeerId :=
  match n.announcements[i]? with
  | none => n
  | some a =>
    if a.running = false then n
    else match w with
    | .ended => { n with announcements := n.announcements.set i (a.reports false (.expired,none)) }
    | .tick failure =>
      let provided := provide (dhtOf a.peer) a.cidStr failure
      { announcements := n.announcements.set i (a.reports true (report .refresh provided)),
        records := n.records++recorded a.peer provided }

def next (n : Network Cid PeerId) : Action PeerId → Network Cid PeerId
  | .start peer sessionID failure => start dhtOf n peer sessionID failure
  | .wake i w => wake dhtOf n i w

def initial : Network Cid PeerId := ⟨[],[]⟩

/-- The CID that a node reads out of the text that it announces. -/
def identified (peer : PeerId) (cidStr : Bytes) : Option Cid :=
  (dhtOf peer).ipfs.bind fun kad => (kad.parse cidStr).toOption

theorem provide_ok (peer : PeerId) (cidStr : Bytes) (failure : Option GoError) (c : Cid)
    (h : provide (dhtOf peer) cidStr failure = .ok c) : identified dhtOf peer cidStr = some c := by
  rw [provide] at h
  rw [identified]
  cases hipfs : (dhtOf peer).ipfs with
  | none =>
    rw [hipfs] at h
    cases h
  | some kad =>
    rw [hipfs] at h
    cases hparse : kad.parse cidStr with
    | error e =>
      simp only [hparse] at h
      cases h
    | ok d =>
      simp only [hparse] at h
      cases failure with
      | some e => cases h
      | none =>
        obtain rfl : d = c := Except.ok.inj h
        rw [Option.bind_some, hparse]
        rfl

end Steps

section Reports
variable {Cid PeerId : Type} (dhtOf : PeerId → Dht Cid PeerId)

theorem report_cases (success : SessionAnnounceEvent) (provided : Except GoError Cid) :
    report success provided = (success,none) ∨ ∃ e, report success provided = (.failed,some e) := by
  cases provided with
  | ok c => exact .inl rfl
  | error e => exact .inr ⟨e,rfl⟩

def Announced (events : List Report) : Prop := (.initial,none) ∈ events ∨ (.refresh,none) ∈ events

theorem announced_append (events : List Report) (r : Report) :
    Announced (events++[r]) ↔ Announced events ∨ r = (.initial,none) ∨ r = (.refresh,none) := by
  simp only [Announced, List.mem_append, List.mem_singleton, eq_comm (b := r)]
  tauto

/-- An attempt is a success exactly if the CID is known and kad-dht takes the record. -/
structure Outcome (success : SessionAnnounceEvent) (known : Option Cid) (failure : Option GoError)
    (r : Report) : Prop where
  success : known.isSome ∧ failure = none → r = (success,none)
  failed : ¬ (known.isSome ∧ failure = none) → ∃ e, r = (.failed,some e)

end Reports

section Invariant
variable {Cid PeerId : Type} (dhtOf : PeerId → Dht Cid PeerId)

/-- A loop that has reported a success announces this CID for this peer. -/
def Reported (n : Network Cid PeerId) (c : Cid) (peer : PeerId) : Prop :=
  ∃ a ∈ n.announcements, a.peer = peer ∧ identified dhtOf a.peer a.cidStr = some c ∧
    Announced a.events

structure Inv (n : Network Cid PeerId) : Prop where
  named : ∀ a ∈ n.announcements, sessionCidOf a.sessionID = .ok a.cidStr
  records : ∀ c peer, (c,peer) ∈ n.records ↔ Reported dhtOf n c peer

theorem inv_initial : Inv dhtOf (initial : Network Cid PeerId) := by
  refine ⟨nofun,fun c peer => ?_⟩
  refine iff_of_false nofun ?_
  rintro ⟨a, ha, -⟩
  cases ha

theorem reported_iff (n : Network Cid PeerId) (c : Cid) (peer : PeerId) :
    Reported dhtOf n c peer ↔ ∃ (i : ℕ) (a : Announcement PeerId), n.announcements[i]? = some a ∧
      a.peer = peer ∧ identified dhtOf a.peer a.cidStr = some c ∧ Announced a.events := by
  constructor
  · rintro ⟨a, ha, h⟩
    obtain ⟨i, hi⟩ := List.mem_iff_getElem?.mp ha
    exact ⟨i,a,hi,h⟩
  · rintro ⟨i, a, hi, h⟩
    exact ⟨a,List.mem_of_getElem? hi,h⟩

/-- A call of `Provide` records what its report says. -/
theorem recorded_iff (owner : PeerId) (cidStr : Bytes) (failure : Option GoError)
    (success : SessionAnnounceEvent) (hsuccess : success ≠ .failed) (c : Cid) (peer : PeerId) :
    (c,peer) ∈ recorded owner (provide (dhtOf owner) cidStr failure) ↔
      owner = peer ∧ identified dhtOf owner cidStr = some c ∧
        report success (provide (dhtOf owner) cidStr failure) = (success,none) := by
  cases hprovide : provide (dhtOf owner) cidStr failure with
  | ok d =>
    rw [provide_ok dhtOf owner cidStr failure d hprovide, recorded, List.mem_singleton]
    simp only [Prod.mk.injEq, Option.some.injEq, report, and_true]
    tauto
  | error e =>
    refine iff_of_false nofun ?_
    rintro ⟨-, -, h⟩
    cases h

theorem start_inv (n : Network Cid PeerId) (h : Inv dhtOf n) (peer : PeerId) (sessionID : Bytes)
    (failure : Option GoError) : Inv dhtOf (start dhtOf n peer sessionID failure) := by
  rw [start]
  cases hcid : sessionCidOf sessionID with
  | error e => exact h
  | ok cidStr =>
    constructor
    · exact List.forall_mem_append.mpr ⟨h.named,List.forall_mem_singleton.mpr hcid⟩
    · intro c p
      have hnew := recorded_iff dhtOf peer cidStr failure .initial nofun c p
      rw [List.mem_append, h.records, hnew]
      simp only [Reported, List.mem_append, List.mem_singleton, or_and_right, exists_or,
        exists_eq_left]
      refine or_congr Iff.rfl (and_congr_right fun _ => and_congr_right fun _ => ?_)
      simp only [Announced, List.mem_singleton]
      have hrefresh : ((.refresh,none) : Report) ≠ report .initial
          (provide (dhtOf peer) cidStr failure) := by
        rcases report_cases .initial (provide (dhtOf peer) cidStr failure) with hr | ⟨e, hr⟩ <;>
          rw [hr] <;> nofun
      constructor
      · exact fun hr => .inl hr.symm
      · exact fun hr => (hr.resolve_right hrefresh).symm

theorem wake_reported (n : Network Cid PeerId) (i : ℕ) (a : Announcement PeerId) (running : Bool)
    (r : Report) (records : List (Cid × PeerId)) (hi : n.announcements[i]? = some a) (c : Cid)
    (peer : PeerId) :
    Reported dhtOf ⟨n.announcements.set i (a.reports running r),records⟩ c peer ↔
      Reported dhtOf n c peer ∨
      (a.peer = peer ∧ identified dhtOf a.peer a.cidStr = some c ∧
        (r = (.initial,none) ∨ r = (.refresh,none))) := by
  have hlt : i < n.announcements.length := (List.getElem?_eq_some_iff.mp hi).1
  rw [reported_iff dhtOf, reported_iff dhtOf]
  constructor
  · rintro ⟨j, b, hj, hb, hidentified, hannounced⟩
    rw [List.getElem?_set] at hj
    by_cases hji : i = j
    · rw [if_pos hji, if_pos hlt] at hj
      obtain rfl := Option.some.inj hj
      rcases (announced_append a.events r).mp hannounced with hold | hnew
      · exact .inl ⟨i,a,hi,hb,hidentified,hold⟩
      · exact .inr ⟨hb,hidentified,hnew⟩
    · rw [if_neg hji] at hj
      exact .inl ⟨j,b,hj,hb,hidentified,hannounced⟩
  · have hset : (n.announcements.set i (a.reports running r))[i]? = some (a.reports running r) := by
      rw [List.getElem?_set, if_pos rfl, if_pos hlt]
    rintro (⟨j, b, hj, hb, hidentified, hannounced⟩ | ⟨hb, hidentified, hnew⟩)
    · by_cases hji : i = j
      · subst hji
        obtain rfl : a = b := Option.some.inj (hi.symm.trans hj)
        exact ⟨i,_,hset,hb,hidentified,(announced_append a.events r).mpr (.inl hannounced)⟩
      · exact ⟨j,b,by rw [List.getElem?_set, if_neg hji]; exact hj,hb,hidentified,hannounced⟩
    · exact ⟨i,_,hset,hb,hidentified,(announced_append a.events r).mpr (.inr hnew)⟩

theorem wake_inv (n : Network Cid PeerId) (h : Inv dhtOf n) (i : ℕ) (w : Wake) :
    Inv dhtOf (wake dhtOf n i w) := by
  rw [wake]
  cases hi : n.announcements[i]? with
  | none => exact h
  | some a =>
    have ha : a ∈ n.announcements := List.mem_of_getElem? hi
    by_cases hrunning : a.running = false
    · simp only [hrunning, if_true]
      exact h
    · simp only [hrunning]
      cases w with
      | ended =>
        constructor
        · exact forall_mem_set _ _ i _ h.named (h.named a ha)
        · intro c peer
          have hkeep := wake_reported dhtOf n i a false (.expired,none) n.records hi c peer
          refine (h.records c peer).trans (Iff.trans ?_ hkeep.symm)
          simp
      | tick failure =>
        constructor
        · exact forall_mem_set _ _ i _ h.named (h.named a ha)
        · intro c peer
          let provided := provide (dhtOf a.peer) a.cidStr failure
          have hnew := recorded_iff dhtOf a.peer a.cidStr failure .refresh nofun c peer
          have hkeep := wake_reported dhtOf n i a true (report .refresh provided)
            (n.records++recorded a.peer provided) hi c peer
          refine Iff.trans ?_ hkeep.symm
          refine List.mem_append.trans ?_
          rw [h.records, hnew]
          refine or_congr Iff.rfl (and_congr_right fun _ => and_congr_right fun _ => ?_)
          have hinitial : report .refresh (provide (dhtOf a.peer) a.cidStr failure) ≠
              (.initial,none) := by
            rcases report_cases .refresh (provide (dhtOf a.peer) a.cidStr failure) with hr | ⟨e, hr⟩ <;>
              rw [hr] <;> nofun
          exact (or_iff_right hinitial).symm

theorem next_inv (n : Network Cid PeerId) (a : Action PeerId) (h : Inv dhtOf n) :
    Inv dhtOf (next dhtOf n a) := by
  cases a with
  | start peer sessionID failure => exact start_inv dhtOf n h peer sessionID failure
  | wake i w => exact wake_inv dhtOf n h i w

theorem run_inv (actions : List (Action PeerId)) :
    Inv dhtOf (run (next dhtOf) (initial : Network Cid PeerId) actions) :=
  run_invariant _ _ (next_inv dhtOf) _ actions (inv_initial dhtOf)

end Invariant

section Histories
variable {Cid PeerId : Type} (dhtOf : PeerId → Dht Cid PeerId)

/-- The ticks up to the end, each with what kad-dht answered. -/
def ticks : List Wake → List (Option GoError)
  | [] => []
  | .tick failure::wakes => failure::ticks wakes
  | .ended::_ => []

def hasEnded : List Wake → Bool
  | [] => false
  | .tick _::wakes => hasEnded wakes
  | .ended::_ => true

/-- The loop has reported one attempt when it started, one at each tick, and its end. -/
structure Told (a : Announcement PeerId) (failure : Option GoError) (wakes : List Wake) : Prop where
  running : a.running = !hasEnded wakes
  events : ∃ first later, a.events = first::later++(if hasEnded wakes then [(.expired,none)] else []) ∧
    Outcome .initial (identified dhtOf a.peer a.cidStr) failure first ∧
    List.Forall₂ (Outcome .refresh (identified dhtOf a.peer a.cidStr)) (ticks wakes) later

section Steps
variable (n : Network Cid PeerId)

end Steps

section Samples

end Samples

end Histories

end Aevia.Announce
