import Mathlib.Data.List.Induction
import Mathlib.Data.List.Nodup
import WebsocketCpp.Misc.Heap
import WebsocketCpp.Websocket.HeartbeatRecv
import WebsocketCpp.Websocket.Proofs.AppMessages

/-!
# When a connection was last seen

What the server's heartbeat is for is to keep a map from connections to times. `lastSeen_refines`: its
list is that map, and its timer drops what is overdue, wherever that stands in the list.
-/

namespace WebsocketCpp

open Traced

/-! ## The map -/

/-- When the connections that are tracked were last updated. -/
abbrev LastSeen := Nat → Option Timestamp

namespace LastSeen

def empty : LastSeen := fun _ => none

/-- The connection was last updated in a second that is more than 15 seconds ago. -/
def Overdue (m : LastSeen) (now : Timestamp) (conn : Nat) : Prop :=
  ∃ t, m conn = some t ∧ t.seconds < now.seconds - 15

instance (m : LastSeen) (now : Timestamp) (conn : Nat) : Decidable (m.Overdue now conn) :=
  match h : m conn with
  | some t =>
    if hlt : t.seconds < now.seconds - 15 then .isTrue ⟨t, h, hlt⟩
    else .isFalse fun ⟨_, ht, hlt'⟩ => hlt (Option.some.inj (h.symm.trans ht) ▸ hlt')
  | none => .isFalse fun ⟨_, ht, _⟩ => by cases h.symm.trans ht

def updateConn (m : LastSeen) (conn : Nat) (now : Timestamp) : LastSeen :=
  Function.update m conn (some now)

def timerCallback (m : LastSeen) (now : Timestamp) : LastSeen :=
  fun conn => if m.Overdue now conn then none else m conn

def step (m : LastSeen) : RecvStep → LastSeen
  | .updateConn _ conn now _ => m.updateConn conn now
  | .timerCallback now => m.timerCallback now

end LastSeen

/-- The map after a run: the time of the latest update of every connection that has not been dropped
since. -/
def lastSeen (steps : List RecvStep) : LastSeen := steps.foldl LastSeen.step .empty

/-- `updateConn` of the connection was last called at `t`. -/
def LatestUpdate (steps : List RecvStep) (conn : Nat) (t : Timestamp) : Prop :=
  ∃ before header call after, steps = before ++ .updateConn header conn t call :: after ∧
    ∀ header' now call', .updateConn header' conn now call' ∉ after

/-- The list holds the connections of the map, each once, with the second it was seen in. -/
structure Tracks (connList : List (Nat × Nat)) (m : LastSeen) : Prop where
  nodup : (connList.map Prod.fst).Nodup
  mem_iff : ∀ conn second, (conn, second) ∈ connList ↔ ∃ t, m conn = some t ∧ (second : Int) = t.seconds

/-! ## `touch` -/

section Touch

variable {conn second : Nat} {l : List (Nat × Nat)}

theorem map_fst_touch : (touch conn second l).map Prod.fst =
    if conn ∈ l.map Prod.fst then l.map Prod.fst else l.map Prod.fst ++ [conn] := by
  induction l with
  | nil => rfl
  | cons entry rest ih =>
      rw [touch]
      by_cases heq : entry.1 = conn
      · rw [if_pos heq, if_pos (by simp [heq]), List.map_cons, List.map_cons, heq]
      · rw [if_neg heq, List.map_cons, ih]
        have hmem : conn ∈ (entry :: rest).map Prod.fst ↔ conn ∈ rest.map Prod.fst := by
          rw [List.map_cons, List.mem_cons]
          exact or_iff_right (Ne.symm heq)
        by_cases hconn : conn ∈ rest.map Prod.fst
        · rw [if_pos hconn, if_pos (hmem.mpr hconn)]
          rfl
        · rw [if_neg hconn, if_neg fun h => hconn (hmem.mp h)]
          rfl

theorem nodup_touch (h : (l.map Prod.fst).Nodup) : ((touch conn second l).map Prod.fst).Nodup := by
  rw [map_fst_touch]
  split
  · exact h
  · rename_i hconn
    exact h.append (List.nodup_singleton conn) (by simpa using hconn)

theorem mem_touch (h : (l.map Prod.fst).Nodup) {entry : Nat × Nat} :
    entry ∈ touch conn second l ↔ entry = (conn, second) ∨ entry.1 ≠ conn ∧ entry ∈ l := by
  induction l with
  | nil => simp [touch]
  | cons entry' rest ih =>
      obtain ⟨hnot, hrest⟩ := List.nodup_cons.mp h
      rw [touch]
      by_cases heq : entry'.1 = conn
      · rw [if_pos heq, List.mem_cons, List.mem_cons]
        have hother : entry ∈ rest → entry.1 ≠ conn := by
          intro hmem heq'
          apply hnot
          rw [heq, ← heq']
          exact List.mem_map_of_mem hmem
        constructor
        · rintro (rfl | hmem)
          · exact .inl rfl
          · exact .inr ⟨hother hmem, .inr hmem⟩
        · rintro (rfl | ⟨hne, rfl | hmem⟩)
          · exact .inl rfl
          · exact absurd heq hne
          · exact .inr hmem
      · rw [if_neg heq, List.mem_cons, List.mem_cons, ih hrest]
        constructor
        · rintro (rfl | rfl | ⟨hne, hmem⟩)
          · exact .inr ⟨heq, .inl rfl⟩
          · exact .inl rfl
          · exact .inr ⟨hne, .inr hmem⟩
        · rintro (rfl | ⟨hne, rfl | hmem⟩)
          · exact .inr (.inl rfl)
          · exact .inl rfl
          · exact .inr (.inr ⟨hne, hmem⟩)

end Touch

/-! ## The loop of the timer -/

namespace HeartbeatRecv

/-- From any position on, the loop closes and removes what has expired, and keeps the rest. -/
theorem timerLoop_eq (now : Timestamp) (connList : List (Nat × Nat)) (it : Nat)
    (hit : it ≤ connList.length) : timerLoop now connList it =
      ⟨((connList.drop it).filter (expired now)).map fun entry => .forceClose entry.1,
        .ok (connList.take it ++ (connList.drop it).filter fun entry => ¬expired now entry)⟩ := by
  induction connList, it using timerLoop.induct now with
  | case1 connList it h hexpired ih =>
      have hlength := length_eraseIdx_add_one h
      have hrest : it ≤ (connList.eraseIdx it).length := by omega
      simp only [succPos_predPos hrest] at ih
      rw [timerLoop, dif_pos h, if_pos hexpired]
      simp only [succPos_predPos hrest]
      rw [ih hrest, take_eraseIdx_self h, drop_eraseIdx_self h, List.drop_eq_getElem_cons h,
        List.filter_cons_of_pos (by simpa using hexpired),
        List.filter_cons_of_neg (by simpa using hexpired)]
      rfl
  | case2 connList it h hexpired ih =>
      rw [succPos_of_lt h] at ih
      rw [timerLoop, dif_pos h, if_neg hexpired, succPos_of_lt h, ih h, List.drop_eq_getElem_cons h,
        List.filter_cons_of_neg (by simpa using hexpired),
        List.filter_cons_of_pos (by simpa using hexpired), ← List.take_append_getElem h,
        List.append_assoc]
      rfl
  | case3 connList it h =>
      have hend : connList.length ≤ it := Nat.le_of_not_lt h
      rw [timerLoop, dif_neg h, List.drop_eq_nil_of_le hend, List.take_of_length_le hend,
        List.filter_nil, List.filter_nil, List.append_nil]
      rfl

/-- `timerCallback` goes over the whole list. -/
theorem timerCallback_eq (h : HeartbeatRecv) (now : Timestamp) : h.timerCallback now =
    ⟨(h.connList.filter (expired now)).map fun entry => .forceClose entry.1,
      .ok ⟨h.connList.filter fun entry => ¬expired now entry⟩⟩ := by
  rw [timerCallback, timerLoop_eq now h.connList 0 (Nat.zero_le _), mk_bind]
  exact congrArg (Traced.mk · _) (List.append_nil _)

theorem updateConn_ok (h : HeartbeatRecv) (header : WSHead) (conn now : Nat) {call : FrameCall}
    (hcall : call.len ≤ call.data.length) : ∃ out ret,
      h.updateConn header conn now call = ⟨out, .ok (⟨touch conn now h.connList⟩, ret)⟩ := by
  obtain ⟨ping, hping⟩ : ∃ ping, callEquals call csping = .ok ping := by
    rw [callEquals]
    rw [if_pos hcall]
    split
    · exact ⟨_, rfl⟩
    · exact ⟨_, rfl⟩
  rw [HeartbeatRecv.updateConn]
  cases ping with
  | true =>
      obtain ⟨buffs, heq⟩ := processPing_of_callEquals header conn hping
      rw [heq]
      exact ⟨_, _, rfl⟩
  | false =>
      rw [processPing, hping]
      exact ⟨_, _, rfl⟩

/-! ## The list and the map -/

variable {h : HeartbeatRecv} {m : LastSeen}

theorem stamp_eq {t : Timestamp} (hpos : 0 ≤ t) (hlt : t.seconds < 2 ^ 32) : (t.stamp : Int) = t.seconds := by
  have hnonneg : 0 ≤ t.seconds := Int.tdiv_nonneg hpos (by decide)
  rw [Timestamp.stamp, Int.emod_eq_of_lt hnonneg hlt, Int.toNat_of_nonneg hnonneg]

theorem tracks_updateConn (ht : Tracks h.connList m) (conn : Nat) {now : Timestamp} (hpos : 0 ≤ now)
    (hlt : now.seconds < 2 ^ 32) : Tracks (touch conn now.stamp h.connList) (m.updateConn conn now) where
  nodup := nodup_touch ht.nodup
  mem_iff conn' second := by
    rw [mem_touch ht.nodup, ht.mem_iff, LastSeen.updateConn, Prod.mk.injEq]
    by_cases heq : conn' = conn
    · subst heq
      simp only [true_and, ne_eq, not_true_eq_false, false_and, or_false, Function.update_self,
        Option.some.injEq, exists_eq_left', ← stamp_eq hpos hlt]
      exact Int.natCast_inj.symm
    · simp [heq]

/-- An entry has expired if its connection is overdue. -/
theorem expired_iff (ht : Tracks h.connList m) (now : Timestamp) {entry : Nat × Nat}
    (hentry : entry ∈ h.connList) : expired now entry ↔ m.Overdue now entry.1 := by
  obtain ⟨t, hm, hsecond⟩ := (ht.mem_iff entry.1 entry.2).mp hentry
  rw [expired, hsecond, timeout, LastSeen.Overdue]
  constructor
  · intro hlt
    exact ⟨t, hm, by omega⟩
  · rintro ⟨t', hm', hlt⟩
    obtain rfl := Option.some.inj (hm.symm.trans hm')
    omega

theorem tracks_timerCallback (ht : Tracks h.connList m) (now : Timestamp) :
    Tracks (h.connList.filter fun entry => ¬expired now entry) (m.timerCallback now) where
  nodup := ht.nodup.sublist (List.filter_sublist.map _)
  mem_iff conn second := by
    rw [List.mem_filter, LastSeen.timerCallback]
    constructor
    · rintro ⟨hmem, hnot⟩
      have hdue : ¬m.Overdue now conn := fun hdue =>
        of_decide_eq_true hnot ((expired_iff ht now hmem).mpr hdue)
      rw [if_neg hdue]
      exact (ht.mem_iff conn second).mp hmem
    · split
      · rintro ⟨t, hnone, -⟩
        cases hnone
      · rename_i hdue
        intro hm
        have hmem := (ht.mem_iff conn second).mpr hm
        exact ⟨hmem, decide_eq_true fun hexpired => hdue ((expired_iff ht now hmem).mp hexpired)⟩

/-! ## Runs -/

theorem step_spec (ht : Tracks h.connList m) {a : RecvStep} (ha : h.Allowed a) :
    ∃ h', (h.step a).result = .ok h' ∧ Tracks h'.connList (m.step a) := by
  cases a with
  | updateConn header conn now call =>
      obtain ⟨hpos, hlt, hcall⟩ := ha
      obtain ⟨out, ret, heq⟩ := h.updateConn_ok header conn now.stamp hcall
      rw [step, heq]
      exact ⟨_, rfl, tracks_updateConn ht conn hpos hlt⟩
  | timerCallback now =>
      rw [step, timerCallback_eq]
      exact ⟨_, rfl, tracks_timerCallback ht now⟩

theorem run_spec {steps : List RecvStep} (ht : Tracks h.connList m) (hlegal : recvMachine.Legal h steps) :
    ∃ h', (recvMachine.run h steps).result = .ok h' ∧ Tracks h'.connList (steps.foldl LastSeen.step m) := by
  induction steps generalizing h m with
  | nil => exact ⟨h, rfl, ht⟩
  | cons a steps ih =>
      obtain ⟨h₁, hok, ht₁⟩ := step_spec ht hlegal.1
      obtain ⟨h', hrun, ht'⟩ := ih ht₁ (hlegal.2 h₁ hok)
      refine ⟨h', ?_, ht'⟩
      rw [Machine.run_cons, bind_of_ok (show (recvMachine.step h a).result = .ok h₁ from hok)]
      exact hrun

end HeartbeatRecv

theorem lastSeen_append (steps : List RecvStep) (a : RecvStep) :
    lastSeen (steps ++ [a]) = (lastSeen steps).step a := List.foldl_append

/-- The times in the map are those of the latest updates. -/
theorem latestUpdate_of_lastSeen {steps : List RecvStep} {conn : Nat} {t : Timestamp}
    (h : lastSeen steps conn = some t) : LatestUpdate steps conn t := by
  induction steps using List.reverseRecOn with
  | nil => cases h
  | append_singleton steps a ih =>
      rw [lastSeen_append] at h
      have hother : lastSeen steps conn = some t → (∀ header now call, a ≠ .updateConn header conn now call) →
          LatestUpdate (steps ++ [a]) conn t := by
        intro hbefore hne
        obtain ⟨before, header, call, after, rfl, hafter⟩ := ih hbefore
        refine ⟨before, header, call, after ++ [a], by simp, fun header' now call' hmem => ?_⟩
        rcases List.mem_append.mp hmem with hmem | hmem
        · exact hafter header' now call' hmem
        · exact hne header' now call' (List.mem_singleton.mp hmem).symm
      cases a with
      | updateConn header conn' now call =>
          rw [LastSeen.step, LastSeen.updateConn] at h
          by_cases heq : conn = conn'
          · subst heq
            rw [Function.update_self] at h
            obtain rfl := Option.some.inj h
            exact ⟨steps, header, call, [], rfl, fun _ _ _ => List.not_mem_nil⟩
          · rw [Function.update_of_ne heq] at h
            apply hother h
            intro header' now' call' hsame
            cases hsame
            exact heq rfl
      | timerCallback now =>
          refine hother ?_ nofun
          rw [LastSeen.step, LastSeen.timerCallback] at h
          split at h
          · cases h
          · exact h

/-- In every state that is reached, the list is the map of the connections that are tracked and the
seconds of their latest updates, and the timer closes and drops what is overdue and nothing else. -/
theorem lastSeen_refines {steps : List RecvStep} (hlegal : recvMachine.Legal .new steps) :
    ∃ h, (recvMachine.run .new steps).result = .ok h ∧ Tracks h.connList (lastSeen steps) ∧
      (∀ conn t, lastSeen steps conn = some t → LatestUpdate steps conn t) ∧
      ∀ now, h.timerCallback now =
        ⟨((h.connList.map Prod.fst).filter fun conn => (lastSeen steps).Overdue now conn).map .forceClose,
          .ok ⟨h.connList.filter fun entry => ¬(lastSeen steps).Overdue now entry.1⟩⟩ := by
  have hempty : Tracks HeartbeatRecv.new.connList LastSeen.empty :=
    ⟨.nil, fun _ _ => iff_of_false List.not_mem_nil fun ⟨_, hnone, _⟩ => by cases hnone⟩
  obtain ⟨h, hrun, ht⟩ := HeartbeatRecv.run_spec hempty hlegal
  refine ⟨h, hrun, ht, fun _ _ => latestUpdate_of_lastSeen, ?_⟩
  intro now
  rw [HeartbeatRecv.timerCallback_eq, List.filter_map, List.map_map]
  have hiff : ∀ entry ∈ h.connList,
      (HeartbeatRecv.expired now entry ↔ (lastSeen steps).Overdue now entry.1) :=
    fun entry => HeartbeatRecv.expired_iff ht now
  rw [List.filter_congr fun entry hentry => decide_eq_decide.mpr (hiff entry hentry),
    List.filter_congr fun entry hentry => decide_eq_decide.mpr (not_congr (hiff entry hentry))]
  rfl

/-- One connection sends a "PING" and another some data, and the first becomes overdue. -/
def overdueRun : List RecvStep :=
  [.updateConn ⟨0, 0, 0, 0, 0⟩ 1 1000000 (.of csping), .updateConn ⟨0, 0, 0, 0, 0⟩ 2 9000000 (.of []),
    .timerCallback 17000000]

theorem lastSeen_refines_overdue : ∃ h, (recvMachine.run .new overdueRun).result = .ok h ∧
    Tracks h.connList (lastSeen overdueRun) := by
  have hlegal : recvMachine.Legal .new overdueRun :=
    ⟨⟨by decide, by decide, by decide⟩, fun _ _ => ⟨⟨by decide, by decide, by decide⟩,
      fun _ _ => ⟨trivial, fun _ _ => trivial⟩⟩⟩
  obtain ⟨h, hrun, htracks, -⟩ := lastSeen_refines hlegal
  exact ⟨h, hrun, htracks⟩

end WebsocketCpp
