import OmegaStick.Library.Stringify

/-!
# Choosing the stick to reconnect to

After a reboot the page looks for the stick it was connected to among the ports and devices
it may open (`findGranted`).  `pickReconnectCandidate` is the choice: the saved object, or
else the only free candidate that fits the link.  `pickReconnectCandidate_eq` gives the
three filters of the source as one, so that whatever is said of the choice is said of the
candidates that fit.
-/

namespace OmegaStick

namespace Console

open Json (JsString)

/-! ## Links and candidates -/

inductive LinkKind where
  | serial | usb | sim
  deriving DecidableEq, Repr

/-- What is remembered of the stick that was connected; an id or a serial may be undefined. -/
structure ReconnectLink (Id : Type) where
  kind : LinkKind
  vid : Option Id
  pid : Option Id
  serial : Option JsString := none
  deriving DecidableEq, Repr

/-- A port or device that may be opened.  `isSaved` marks the object connected before. -/
structure Candidate (Ref Id : Type) where
  ref : Ref
  kind : LinkKind
  opened : Bool
  vid : Option Id
  pid : Option Id
  serial : Option JsString := none
  isSaved : Bool
  deriving DecidableEq, Repr

inductive PickReason where
  | exact | onlyMatch | ambiguous | none
  deriving DecidableEq, Repr

structure Pick (Ref Id : Type) where
  candidate : Option (Candidate Ref Id)
  reason : PickReason
  deriving DecidableEq, Repr

section Pick

variable {Ref Id : Type} [DecidableEq Id]

/-- `link.serial` is neither undefined nor empty. -/
def ReconnectLink.knowsSerial (link : ReconnectLink Id) : Bool :=
  link.serial.any fun serial => !serial.isEmpty

/-- The list itself may be missing, and so may what it lists. -/
def listed (candidates : Option (List (Option (Candidate Ref Id)))) : List (Candidate Ref Id) :=
  (candidates.getD []).filterMap id

def free (link : ReconnectLink Id) (candidates : Option (List (Option (Candidate Ref Id)))) :
    List (Candidate Ref Id) :=
  (listed candidates).filter fun c => !c.opened && c.kind = link.kind

/-- The end of `pickReconnectCandidate`: one match or none. -/
def onlyMatch (same : List (Candidate Ref Id)) : Pick Ref Id :=
  if same.length = 1 then ⟨same[0]?, .onlyMatch⟩
  else ⟨none, if 1 < same.length then .ambiguous else .none⟩

/-- `pickReconnectCandidate` where no free candidate is the saved object. -/
def pickUnsaved (link : ReconnectLink Id) (free : List (Candidate Ref Id)) : Pick Ref Id :=
  let same := free.filter fun c => c.vid = link.vid && c.pid = link.pid
  if link.kind = .usb && link.knowsSerial then
    let bySerial := same.filter fun c => c.serial = link.serial
    if bySerial.length = 1 then ⟨bySerial[0]?, .exact⟩ else onlyMatch bySerial
  else onlyMatch same

def pickReconnectCandidate (link : ReconnectLink Id)
    (candidates : Option (List (Option (Candidate Ref Id)))) : Pick Ref Id :=
  match (free link candidates).find? fun c => c.isSaved with
  | some saved => ⟨some saved, .exact⟩
  | none => pickUnsaved link (free link candidates)

/-! ## One filter -/

/-- The candidate is the same product, and over USB has the serial number that is known. -/
def ReconnectLink.Fits (link : ReconnectLink Id) (c : Candidate Ref Id) : Prop :=
  c.vid = link.vid ∧ c.pid = link.pid ∧
    (link.kind = .usb → link.knowsSerial = true → c.serial = link.serial)

instance (link : ReconnectLink Id) (c : Candidate Ref Id) : Decidable (link.Fits c) :=
  inferInstanceAs (Decidable (_ ∧ _ ∧ (_ → _ → _)))

/-- The free candidates that fit the link equally well. -/
def matching (link : ReconnectLink Id) (candidates : Option (List (Option (Candidate Ref Id)))) :
    List (Candidate Ref Id) :=
  (free link candidates).filter fun c => decide (link.Fits c)

omit [DecidableEq Id] in
theorem mem_free {link : ReconnectLink Id} {candidates : Option (List (Option (Candidate Ref Id)))}
    {c : Candidate Ref Id} :
    c ∈ free link candidates ↔ c ∈ listed candidates ∧ c.opened = false ∧ c.kind = link.kind := by
  simp [free]

omit [DecidableEq Id] in
theorem onlyMatch_candidate {same : List (Candidate Ref Id)} {c : Candidate Ref Id} :
    (onlyMatch same).candidate = some c ↔ same = [c] := by
  unfold onlyMatch
  split_ifs with hone
  · obtain ⟨a, rfl⟩ := List.length_eq_one_iff.mp hone
    simp
  · refine iff_of_false nofun ?_
    rintro rfl
    exact hone rfl

/-- The filters together keep what fits. -/
theorem pickUnsaved_candidate (link : ReconnectLink Id) (free : List (Candidate Ref Id)) :
    (pickUnsaved link free).candidate =
      (onlyMatch (free.filter fun c => decide (link.Fits c))).candidate := by
  unfold pickUnsaved
  dsimp only
  by_cases hserial : (link.kind = .usb && link.knowsSerial) = true
  · obtain ⟨husb, hknows⟩ : link.kind = .usb ∧ link.knowsSerial = true := by
      simpa using hserial
    have hsame : (free.filter fun c => c.vid = link.vid && c.pid = link.pid).filter
        (fun c => c.serial = link.serial) = free.filter fun c => decide (link.Fits c) := by
      rw [List.filter_filter]
      refine List.filter_congr fun c _ => ?_
      rw [← Bool.decide_and, ← Bool.decide_and]
      refine decide_eq_decide.mpr ⟨fun h => ⟨h.2.1, h.2.2, fun _ _ => h.1⟩, fun h => ?_⟩
      exact ⟨h.2.2 husb hknows, h.1, h.2.1⟩
    rw [if_pos hserial, hsame]
    split_ifs with hone
    · rw [onlyMatch, if_pos hone]
    · rfl
  · have hsame : (free.filter fun c => c.vid = link.vid && c.pid = link.pid) =
        free.filter fun c => decide (link.Fits c) := by
      refine List.filter_congr fun c _ => ?_
      rw [← Bool.decide_and]
      refine decide_eq_decide.mpr ⟨fun h => ⟨h.1, h.2, fun husb hknows => ?_⟩,
        fun h => ⟨h.1, h.2.1⟩⟩
      exact absurd (by simp [husb, hknows]) hserial
    rw [if_neg hserial, hsame]

/-- The saved object, or else the one candidate that fits. -/
theorem pickReconnectCandidate_eq (link : ReconnectLink Id)
    (candidates : Option (List (Option (Candidate Ref Id)))) :
    (pickReconnectCandidate link candidates).candidate =
      ((free link candidates).find? fun c => c.isSaved).or
        (onlyMatch (matching link candidates)).candidate := by
  unfold pickReconnectCandidate
  split
  · next saved hsaved => rw [hsaved, Option.some_or]
  · next hsaved => rw [hsaved, Option.none_or, pickUnsaved_candidate, matching]

/-! ## What is chosen -/

/-- **The reconnect does not guess** between the candidates. -/
structure NeverGuesses (link : ReconnectLink Id)
    (candidates : Option (List (Option (Candidate Ref Id)))) : Prop where
  /-- What is chosen was listed, is not open and is of the link's kind; it is the saved object
  or the only free candidate that fits. -/
  sound : ∀ c, (pickReconnectCandidate link candidates).candidate = some c →
    c ∈ listed candidates ∧ c.opened = false ∧ c.kind = link.kind ∧
      (c.isSaved = true ∨ matching link candidates = [c])
  /-- Where two fit and none of the free is the saved object, none is chosen. -/
  ambiguous : (∀ c ∈ free link candidates, c.isSaved = false) →
    2 ≤ (matching link candidates).length →
    (pickReconnectCandidate link candidates).candidate = none
  /-- With one saved object at most, the order in the list does not matter. -/
  order : (listed candidates).countP (fun c => c.isSaved) ≤ 1 →
    ∀ other, (listed candidates).Perm (listed other) →
      pickReconnectCandidate link candidates = pickReconnectCandidate link other

theorem pickReconnectCandidate_sound {link : ReconnectLink Id}
    {candidates : Option (List (Option (Candidate Ref Id)))} {c : Candidate Ref Id}
    (h : (pickReconnectCandidate link candidates).candidate = some c) :
    c ∈ listed candidates ∧ c.opened = false ∧ c.kind = link.kind ∧
      (c.isSaved = true ∨ matching link candidates = [c]) := by
  rw [pickReconnectCandidate_eq, Option.or_eq_some_iff] at h
  rcases h with hsaved | ⟨-, honly⟩
  · obtain ⟨hlisted, hopened, hkind⟩ := mem_free.mp (List.mem_of_find?_eq_some hsaved)
    have hc : c.isSaved = true := List.find?_some hsaved
    exact ⟨hlisted, hopened, hkind, .inl hc⟩
  · have honly := onlyMatch_candidate.mp honly
    have hmem : c ∈ matching link candidates := by
      rw [honly]
      exact List.mem_singleton_self c
    obtain ⟨hlisted, hopened, hkind⟩ := mem_free.mp (List.mem_filter.mp hmem).1
    exact ⟨hlisted, hopened, hkind, .inr honly⟩

omit [DecidableEq Id] in
theorem onlyMatch_perm {same other : List (Candidate Ref Id)} (h : same.Perm other) :
    onlyMatch same = onlyMatch other := by
  unfold onlyMatch
  rw [h.length_eq]
  split_ifs with hone
  · obtain ⟨c, rfl⟩ := List.length_eq_one_iff.mp hone
    rw [List.perm_singleton.mp h]
  · rfl
  · rfl

omit [DecidableEq Id] in
/-- The search for the saved object does not depend on the order. -/
theorem find_saved_perm {before after : List (Candidate Ref Id)}
    (h : before.Perm after) (hsaved : before.countP (fun c => c.isSaved) ≤ 1) :
    (before.find? fun c => c.isSaved) = after.find? fun c => c.isSaved := by
  have hfilter := h.filter fun c => c.isSaved
  rw [← List.head?_filter, ← List.head?_filter]
  rw [List.countP_eq_length_filter] at hsaved
  rcases Nat.le_one_iff_eq_zero_or_eq_one.mp hsaved with hnone | hone
  · have hnil := List.length_eq_zero_iff.mp hnone
    rw [hnil] at hfilter ⊢
    rw [List.nil_perm.mp hfilter]
  · obtain ⟨c, hc⟩ := List.length_eq_one_iff.mp hone
    rw [hc] at hfilter ⊢
    rw [List.singleton_perm.mp hfilter]

theorem pickUnsaved_perm (link : ReconnectLink Id) {free other : List (Candidate Ref Id)}
    (h : free.Perm other) : pickUnsaved link free = pickUnsaved link other := by
  have hsame := h.filter fun c => c.vid = link.vid && c.pid = link.pid
  unfold pickUnsaved
  dsimp only
  by_cases hserial : (link.kind = .usb && link.knowsSerial) = true
  swap
  · rw [if_neg hserial, if_neg hserial, onlyMatch_perm hsame]
  rw [if_pos hserial, if_pos hserial]
  have hbySerial := hsame.filter fun c => c.serial = link.serial
  rw [hbySerial.length_eq, onlyMatch_perm hbySerial]
  split_ifs with hone
  · obtain ⟨c, hc⟩ := List.length_eq_one_iff.mp hone
    rw [hc] at hbySerial ⊢
    rw [List.perm_singleton.mp hbySerial]
  · rfl

theorem pickReconnectCandidate_perm {link : ReconnectLink Id}
    {candidates other : Option (List (Option (Candidate Ref Id)))}
    (h : (listed candidates).Perm (listed other))
    (hsaved : (listed candidates).countP (fun c => c.isSaved) ≤ 1) :
    pickReconnectCandidate link candidates = pickReconnectCandidate link other := by
  have hfree : (free link candidates).Perm (free link other) := h.filter _
  have hone : (free link candidates).countP (fun c => c.isSaved) ≤ 1 :=
    List.filter_sublist.countP_le.trans hsaved
  unfold pickReconnectCandidate
  rw [find_saved_perm hfree hone, pickUnsaved_perm link hfree]

theorem neverGuesses (link : ReconnectLink Id)
    (candidates : Option (List (Option (Candidate Ref Id)))) : NeverGuesses link candidates where
  sound _ h := pickReconnectCandidate_sound h
  ambiguous hsaved htwo := by
    have hnone : ((free link candidates).find? fun c => c.isSaved) = none :=
      List.find?_eq_none.mpr fun c hc => by simp [hsaved c hc]
    rw [pickReconnectCandidate_eq, hnone, Option.none_or]
    refine Option.eq_none_iff_forall_ne_some.mpr fun c hc => ?_
    rw [onlyMatch_candidate.mp hc, List.length_singleton] at htwo
    omega
  order hsaved _ h := pickReconnectCandidate_perm h hsaved

end Pick

/-! ## The ports and devices the page may open -/

section FindGranted

variable {Ref Id : Type} [DecidableEq Ref] [DecidableEq Id]

/-- A port or device the browser lists; `readable` is a port's `opened`. -/
structure Granted (Ref Id : Type) where
  ref : Ref
  opened : Bool
  vid : Option Id
  pid : Option Id
  serialNumber : Option JsString := none
  deriving DecidableEq, Repr

/-- The link the page keeps over a reboot; `saved` is its port or device object. -/
inductive SavedLink (Ref Id : Type) where
  | sim (url : JsString)
  | usb (saved : Ref) (vid pid : Option Id) (serial : Option JsString)
  | serial (saved : Ref) (vid pid : Option Id)
  deriving DecidableEq, Repr

/-- The simulator is found by its address, a stick by the choice. -/
inductive Found (Ref Id : Type) where
  | address (url : JsString)
  | picked (pick : Pick Ref Id)
  deriving DecidableEq, Repr

/-- The descriptor `findGranted` makes of what the browser lists. -/
def Granted.candidate (saved : Ref) (kind : LinkKind) (g : Granted Ref Id) : Candidate Ref Id where
  ref := g.ref
  kind := kind
  opened := g.opened
  vid := g.vid
  pid := g.pid
  serial := some (if kind = .usb then g.serialNumber.getD [] else [])
  isSaved := decide (g.ref = saved)

/-- What `findGranted` hands to the choice, with `granted` the answer of `getDevices` or
`getPorts`.  A serial port of unknown product is only looked for as the object it was. -/
def findGranted (link : SavedLink Ref Id) (granted : List (Granted Ref Id)) : Found Ref Id :=
  match link with
  | .sim url => .address url
  | .usb saved vid pid serial =>
      .picked (pickReconnectCandidate ⟨.usb, vid, pid, some (serial.getD [])⟩
        (some ((granted.map (Granted.candidate saved .usb)).map some)))
  | .serial saved vid pid =>
      let candidates := granted.map (Granted.candidate saved .serial)
      let candidates := if vid.isNone then candidates.filter fun c => c.isSaved else candidates
      .picked (pickReconnectCandidate ⟨.serial, vid, pid, none⟩ (some (candidates.map some)))

omit [DecidableEq Ref] [DecidableEq Id] in
theorem listed_some (candidates : List (Candidate Ref Id)) :
    listed (some (candidates.map some)) = candidates := by
  simp [listed]

omit [DecidableEq Id] in
/-- An object that is listed once gives one saved candidate at most. -/
theorem countP_isSaved_le {granted : List (Granted Ref Id)}
    (hnodup : (granted.map Granted.ref).Nodup) (saved : Ref) (kind : LinkKind) :
    (granted.map (Granted.candidate saved kind)).countP (fun c => c.isSaved) ≤ 1 := by
  have hcount : (granted.map (Granted.candidate saved kind)).countP (fun c => c.isSaved) =
      (granted.map Granted.ref).count saved := by
    rw [List.count, List.countP_map, List.countP_map]
    exact List.countP_congr fun g _ => by simp [Granted.candidate]
  rw [hcount]
  exact List.nodup_iff_count_le_one.mp hnodup saved

/-- **The order in which the browser lists its ports and devices does not matter.** -/
theorem findGranted_perm (link : SavedLink Ref Id) {granted other : List (Granted Ref Id)}
    (h : granted.Perm other) (hnodup : (granted.map Granted.ref).Nodup) :
    findGranted link granted = findGranted link other := by
  cases link with
  | sim url => rfl
  | usb saved vid pid serial =>
      refine congrArg Found.picked (pickReconnectCandidate_perm ?_ ?_)
      · rw [listed_some, listed_some]
        exact h.map _
      · rw [listed_some]
        exact countP_isSaved_le hnodup saved .usb
  | serial saved vid pid =>
      have hmap := h.map (Granted.candidate saved .serial)
      have hone := countP_isSaved_le hnodup saved .serial
      refine congrArg Found.picked (pickReconnectCandidate_perm ?_ ?_)
      · rw [listed_some, listed_some]
        split_ifs
        · exact hmap.filter _
        · exact hmap
      · rw [listed_some]
        split_ifs
        · exact List.filter_sublist.countP_le.trans hone
        · exact hone

end FindGranted

end Console

end OmegaStick
