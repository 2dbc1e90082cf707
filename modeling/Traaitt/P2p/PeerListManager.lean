import Traaitt.Config.CryptoNoteConfig
import Traaitt.Library.KeyedList

/-! `PeerListManager.cpp` and `Peerlist.cpp`: the node's two lists of peers, the white list of
peers it has connected to and the gray list of peers it has heard of. A writer finds an address
with `std::find_if` and overwrites its entry, or pushes the peer and trims the list; the white
writer then takes the address out of the gray list, and the gray writer leaves alone an address
that is white. Readers and trims sort a list newest first with `std::sort`, whose order among
entries seen at the same time is left open, so the sort is a parameter of the model. From empty
lists every run of calls keeps the addresses of each list distinct, the two lists disjoint and
within their limits, and every address one that `is_ip_allowed` accepted; a trim drops only
entries no newer than every entry it keeps. -/

namespace CryptoNote

open KeyedList

/-- `NetworkAddress`; its `operator==` is `memcmp` of the two fields. -/
structure NetworkAddress where
  ip : UInt32
  port : UInt32
  deriving DecidableEq, Repr

structure PeerlistEntry where
  adr : NetworkAddress
  id : UInt64
  lastSeen : UInt64
  deriving DecidableEq, Repr

/-- The order the comparator `lhs.last_seen > rhs.last_seen` leaves a sorted list in: newest
first. -/
def NewerFirst (a b : PeerlistEntry) : Prop :=
  b.lastSeen ≤ a.lastSeen

instance (a b : PeerlistEntry) : Decidable (NewerFirst a b) :=
  inferInstanceAs (Decidable (_ ≤ _))

/-- `std::sort` with that comparator, as `List.mergeSort` runs it. -/
def mergeSortNewerFirst : SortBy NewerFirst :=
  (SortBy.mergeSort (fun a b => decide (b.lastSeen ≤ a.lastSeen))
    (fun a b c hab hbc => by
      simp only [decide_eq_true_eq] at hab hbc ⊢
      exact UInt64.le_trans hbc hab)
    (fun a b => by
      rcases UInt64.le_total a.lastSeen b.lastSeen with hle | hle <;> simp [hle])).imp
    fun _ _ h => of_decide_eq_true h

/-- `hostToNetwork`, a byte swap; `networkToHost` is the same. -/
def hostToNetwork (n : UInt32) : UInt32 :=
  (n <<< 24) ||| (n &&& 0xff00) <<< 8 ||| (n &&& 0xff0000) >>> 8 ||| (n >>> 24)

def networkToHost (n : UInt32) : UInt32 :=
  hostToNetwork n

namespace Ipv4Address

/-- `Ipv4Address::isLoopback`: 127.0.0.0/8. -/
def isLoopback (value : UInt32) : Bool :=
  value &&& (0xff000000 : UInt32) == (127 : UInt32) <<< 24

/-- `Ipv4Address::isPrivate`: 10.0.0.0/8, 172.16.0.0/12 and 192.168.0.0/16. The source compares
the masked values cast to `int`; the cast is one to one, so the model compares them unsigned. -/
def isPrivate (value : UInt32) : Bool :=
  value &&& (0xff000000 : UInt32) == (10 : UInt32) <<< 24 ||
    value &&& (0xfff00000 : UInt32) == ((172 : UInt32) <<< 24 ||| (16 : UInt32) <<< 16) ||
    value &&& (0xffff0000 : UInt32) == ((192 : UInt32) <<< 24 ||| (168 : UInt32) <<< 16)

end Ipv4Address

namespace Peerlist

variable (sort : SortBy NewerFirst)

/-- `Peerlist::trim`: a list within `maxSize` is left as it is; a longer one is sorted newest
first and cut at `maxSize`. -/
def trim (maxSize : ℕ) (peers : List PeerlistEntry) : List PeerlistEntry :=
  if peers.length ≤ maxSize then peers else (sort.sort peers).take maxSize

/-- `Peerlist::get`: out of range it fails and leaves the list; otherwise it sorts the list newest
first and returns entry `i` of it. -/
def get (peers : List PeerlistEntry) (i : ℕ) : Option PeerlistEntry × List PeerlistEntry :=
  if i ≥ peers.length then (none, peers) else ((sort.sort peers)[i]?, sort.sort peers)

/-- The writers' common step on one list: where `std::find_if` finds the peer's address its entry
is overwritten, and otherwise the peer is pushed and the list trimmed to `maxSize`. -/
def updateOrPush (maxSize : ℕ) (peers : List PeerlistEntry) (newPeer : PeerlistEntry) :
    List PeerlistEntry :=
  match findKey PeerlistEntry.adr peers newPeer.adr with
  | none => trim sort maxSize (peers ++ [newPeer])
  | some i => peers.set i newPeer

variable {sort} {maxSize : ℕ} {peers : List PeerlistEntry} {newPeer : PeerlistEntry}

theorem trim_subperm : (trim sort maxSize peers).Subperm peers := by
  unfold trim
  split_ifs
  · exact List.Subperm.refl _
  · exact sort.take_subperm peers maxSize

theorem length_trim_le : (trim sort maxSize peers).length ≤ maxSize := by
  unfold trim
  split_ifs with hfits
  · exact hfits
  · rw [List.length_take]
    exact Nat.min_le_left _ _

/-- A trim drops only entries no newer than every entry it keeps. -/
theorem trim_drops_older (maxSize : ℕ) (peers : List PeerlistEntry) :
    ∃ dropped, (trim sort maxSize peers ++ dropped).Perm peers ∧
      ∀ kept ∈ trim sort maxSize peers, ∀ entry ∈ dropped, entry.lastSeen ≤ kept.lastSeen := by
  unfold trim
  split_ifs
  · exact ⟨[], by rw [List.append_nil], fun _ _ _ hentry => absurd hentry List.not_mem_nil⟩
  · exact ⟨_, sort.take_drop peers maxSize⟩

theorem get_perm (i : ℕ) : (get sort peers i).2.Perm peers := by
  unfold get
  split_ifs
  · exact List.Perm.refl _
  · exact sort.perm peers

theorem mem_updateOrPush {x : PeerlistEntry} (hx : x ∈ updateOrPush sort maxSize peers newPeer) :
    x ∈ peers ∨ x = newPeer := by
  cases hfind : findKey PeerlistEntry.adr peers newPeer.adr with
  | none =>
    simp only [updateOrPush, hfind] at hx
    simpa using trim_subperm.subset hx
  | some i =>
    simp only [updateOrPush, hfind] at hx
    exact List.mem_or_eq_of_mem_set hx

theorem nodup_updateOrPush (hnodup : (peers.map PeerlistEntry.adr).Nodup) :
    ((updateOrPush sort maxSize peers newPeer).map PeerlistEntry.adr).Nodup := by
  cases hfind : findKey PeerlistEntry.adr peers newPeer.adr with
  | none =>
    simp only [updateOrPush, hfind]
    exact nodup_map_of_subperm trim_subperm (nodup_map_append_of_findKey hfind hnodup)
  | some i =>
    simp only [updateOrPush, hfind]
    rw [map_set_of_findKey hfind]
    exact hnodup

theorem length_updateOrPush_le (hfits : peers.length ≤ maxSize) :
    (updateOrPush sort maxSize peers newPeer).length ≤ maxSize := by
  cases hfind : findKey PeerlistEntry.adr peers newPeer.adr with
  | none =>
    simp only [updateOrPush, hfind]
    exact length_trim_le
  | some i =>
    simp only [updateOrPush, hfind, List.length_set]
    exact hfits

end Peerlist

/-- `PeerlistManager`: `m_allow_local_ip`, set by `init`, and the two lists. -/
structure PeerlistManager where
  allowLocalIp : Bool
  peersGray : List PeerlistEntry
  peersWhite : List PeerlistEntry

namespace PeerlistManager

/-- The constructor and `init(allow_local_ip)`: both lists empty. -/
def init (allowLocalIp : Bool) : PeerlistManager :=
  ⟨allowLocalIp, [], []⟩

/-- `is_ip_allowed`: never a loopback address, and a private one only when local addresses are
allowed. -/
def isIpAllowed (m : PeerlistManager) (ip : UInt32) : Bool :=
  let addr := networkToHost ip
  if Ipv4Address.isLoopback addr then false
  else if !m.allowLocalIp && Ipv4Address.isPrivate addr then false
  else true

-- 127.0.0.1 and 192.168.0.1 as they are stored, in network byte order
example : (init true).isIpAllowed 0x0100007f = false := by decide
example : (init false).isIpAllowed 0x0100a8c0 = false ∧ (init true).isIpAllowed 0x0100a8c0 = true := by
  decide

variable (sort : SortBy NewerFirst)

def trimGrayPeerlist (m : PeerlistManager) : PeerlistManager :=
  { m with peersGray := Peerlist.trim sort P2P_LOCAL_GRAY_PEERLIST_LIMIT m.peersGray }

/-- `append_with_peer_white`: the peer is put into the white list, and the entry of its address,
if any, is erased from the gray list. A peer that `is_ip_allowed` refuses is dropped; the call
answers `true` either way, the `catch` of a failed allocation apart. -/
def appendWithPeerWhite (m : PeerlistManager) (newPeer : PeerlistEntry) :
    Bool × PeerlistManager :=
  if !m.isIpAllowed newPeer.adr.ip then (true, m)
  else
    (true, { m with
      -- `push_back` then `trim_white_peerlist()`, or `*whiteListIterator = newPeer`
      peersWhite := Peerlist.updateOrPush sort P2P_LOCAL_WHITE_PEERLIST_LIMIT m.peersWhite newPeer
      -- `erase` of the entry `std::find_if` found: the first of the address
      peersGray := m.peersGray.eraseP fun peer => peer.adr == newPeer.adr })

/-- `append_with_peer_gray`: nothing for a refused address or one that is white; otherwise the
peer is put into the gray list. -/
def appendWithPeerGray (m : PeerlistManager) (newPeer : PeerlistEntry) :
    Bool × PeerlistManager :=
  if !m.isIpAllowed newPeer.adr.ip then (true, m)
  else if (findKey PeerlistEntry.adr m.peersWhite newPeer.adr).isSome then (true, m)
  else
    -- `push_back` then `trim_gray_peerlist()`, or `*grayListIterator = newPeer`
    (true, { m with
      peersGray := Peerlist.updateOrPush sort P2P_LOCAL_GRAY_PEERLIST_LIMIT m.peersGray newPeer })

/-- `set_peer_just_seen(peer, addr)`: the peer, last seen at `time(NULL)`, into the white list. -/
def setPeerJustSeen (m : PeerlistManager) (peer : UInt64) (addr : NetworkAddress)
    (now : UInt64) : Bool × PeerlistManager :=
  appendWithPeerWhite sort m ⟨addr, peer, now⟩

/-- `merge_peerlist`: every peer of the list into the gray list, then a trim of the gray list. -/
def mergePeerlist (m : PeerlistManager) (outerBs : List PeerlistEntry) :
    Bool × PeerlistManager :=
  let m := outerBs.foldl (fun m be => (appendWithPeerGray sort m be).2) m
  (true, trimGrayPeerlist sort m)

/-- The loop of `get_peerlist_head` over the sorted white list: an entry never seen is skipped,
and after each entry it pushes the loop stops once the count `i` has passed `depth`. -/
def headLoop (depth : UInt32) : UInt32 → List PeerlistEntry → List PeerlistEntry
  | _, [] => []
  | i, peer :: rest =>
    if peer.lastSeen = 0 then headLoop depth i rest
    else peer :: if i > depth then [] else headLoop depth (i + 1) rest

/-- `get_peerlist_head`: sorts the white list newest first and returns the entries the loop
pushes onto `bs_head`. -/
def getPeerlistHead (m : PeerlistManager) (depth : UInt32) :
    List PeerlistEntry × PeerlistManager :=
  let peersWhite := sort.sort m.peersWhite
  (headLoop depth 0 peersWhite, { m with peersWhite })

def getWhitePeerByIndex (m : PeerlistManager) (i : ℕ) : Option PeerlistEntry × PeerlistManager :=
  let got := Peerlist.get sort m.peersWhite i
  (got.1, { m with peersWhite := got.2 })

def getGrayPeerByIndex (m : PeerlistManager) (i : ℕ) : Option PeerlistEntry × PeerlistManager :=
  let got := Peerlist.get sort m.peersGray i
  (got.1, { m with peersGray := got.2 })

/-- The calls that write the lists or reorder them. -/
inductive Call
  | appendWithPeerWhite (newPeer : PeerlistEntry)
  | appendWithPeerGray (newPeer : PeerlistEntry)
  | setPeerJustSeen (peer : UInt64) (addr : NetworkAddress) (now : UInt64)
  | mergePeerlist (outerBs : List PeerlistEntry)
  | getPeerlistHead (depth : UInt32)
  | getWhitePeerByIndex (i : ℕ)
  | getGrayPeerByIndex (i : ℕ)

/-- The manager after one call. -/
def step (m : PeerlistManager) : Call → PeerlistManager
  | .appendWithPeerWhite newPeer => (appendWithPeerWhite sort m newPeer).2
  | .appendWithPeerGray newPeer => (appendWithPeerGray sort m newPeer).2
  | .setPeerJustSeen peer addr now => (setPeerJustSeen sort m peer addr now).2
  | .mergePeerlist outerBs => (mergePeerlist sort m outerBs).2
  | .getPeerlistHead depth => (getPeerlistHead sort m depth).2
  | .getWhitePeerByIndex i => (getWhitePeerByIndex sort m i).2
  | .getGrayPeerByIndex i => (getGrayPeerByIndex sort m i).2

def run (m : PeerlistManager) (calls : List Call) : PeerlistManager :=
  calls.foldl (step sort) m

/-! ## The invariant of the two lists -/

/-- What every run keeps: the addresses of each list distinct, no address in both lists, each
list within its limit, and every address one that `is_ip_allowed` accepts. -/
structure WellFormed (m : PeerlistManager) : Prop where
  nodup_white : (m.peersWhite.map PeerlistEntry.adr).Nodup
  nodup_gray : (m.peersGray.map PeerlistEntry.adr).Nodup
  disjoint : ∀ e ∈ m.peersWhite, ∀ f ∈ m.peersGray, e.adr ≠ f.adr
  white_limit : m.peersWhite.length ≤ P2P_LOCAL_WHITE_PEERLIST_LIMIT
  gray_limit : m.peersGray.length ≤ P2P_LOCAL_GRAY_PEERLIST_LIMIT
  allowed_white : ∀ e ∈ m.peersWhite, m.isIpAllowed e.adr.ip
  allowed_gray : ∀ e ∈ m.peersGray, m.isIpAllowed e.adr.ip

theorem wellFormed_init (allowLocalIp : Bool) : WellFormed (init allowLocalIp) where
  nodup_white := List.nodup_nil
  nodup_gray := List.nodup_nil
  disjoint _ he := absurd he List.not_mem_nil
  white_limit := Nat.zero_le _
  gray_limit := Nat.zero_le _
  allowed_white _ he := absurd he List.not_mem_nil
  allowed_gray _ he := absurd he List.not_mem_nil

variable {sort} {m : PeerlistManager}

theorem WellFormed.white_subperm (hm : WellFormed m) {peersWhite : List PeerlistEntry}
    (hsub : peersWhite.Subperm m.peersWhite) : WellFormed { m with peersWhite } where
  nodup_white := nodup_map_of_subperm hsub hm.nodup_white
  nodup_gray := hm.nodup_gray
  disjoint e he := hm.disjoint e (hsub.subset he)
  white_limit := Nat.le_trans hsub.length_le hm.white_limit
  gray_limit := hm.gray_limit
  allowed_white e he := hm.allowed_white e (hsub.subset he)
  allowed_gray := hm.allowed_gray

theorem WellFormed.gray_subperm (hm : WellFormed m) {peersGray : List PeerlistEntry}
    (hsub : peersGray.Subperm m.peersGray) : WellFormed { m with peersGray } where
  nodup_white := hm.nodup_white
  nodup_gray := nodup_map_of_subperm hsub hm.nodup_gray
  disjoint e he f hf := hm.disjoint e he f (hsub.subset hf)
  white_limit := hm.white_limit
  gray_limit := Nat.le_trans hsub.length_le hm.gray_limit
  allowed_white := hm.allowed_white
  allowed_gray f hf := hm.allowed_gray f (hsub.subset hf)

theorem wellFormed_appendWithPeerWhite (hm : WellFormed m) (newPeer : PeerlistEntry) :
    WellFormed (appendWithPeerWhite sort m newPeer).2 := by
  unfold appendWithPeerWhite
  split_ifs with hrefused
  · exact hm
  have hallowed : m.isIpAllowed newPeer.adr.ip := by simpa using hrefused
  -- the gray list loses the one entry of the address, if it had one
  have herase := (List.eraseP_sublist (p := fun peer => peer.adr == newPeer.adr)
    (l := m.peersGray)).subperm
  have hgone := key_ne_of_mem_eraseP (k := newPeer.adr) hm.nodup_gray
  exact {
    nodup_white := Peerlist.nodup_updateOrPush hm.nodup_white
    nodup_gray := nodup_map_of_subperm herase hm.nodup_gray
    disjoint := fun e he f hf => by
      rcases Peerlist.mem_updateOrPush he with he | rfl
      · exact hm.disjoint e he f (herase.subset hf)
      · exact (hgone f hf).symm
    white_limit := Peerlist.length_updateOrPush_le hm.white_limit
    gray_limit := Nat.le_trans herase.length_le hm.gray_limit
    allowed_white := fun e he => by
      rcases Peerlist.mem_updateOrPush he with he | rfl
      · exact hm.allowed_white e he
      · exact hallowed
    allowed_gray := fun f hf => hm.allowed_gray f (herase.subset hf) }

theorem wellFormed_appendWithPeerGray (hm : WellFormed m) (newPeer : PeerlistEntry) :
    WellFormed (appendWithPeerGray sort m newPeer).2 := by
  unfold appendWithPeerGray
  split_ifs with hrefused hwhite
  · exact hm
  · exact hm
  have hallowed : m.isIpAllowed newPeer.adr.ip := by simpa using hrefused
  -- `std::find_if` found no white entry of the address
  have hnotWhite : ∀ e ∈ m.peersWhite, e.adr ≠ newPeer.adr := by
    simpa [findKey_isSome] using hwhite
  exact {
    nodup_white := hm.nodup_white
    nodup_gray := Peerlist.nodup_updateOrPush hm.nodup_gray
    disjoint := fun e he f hf => by
      rcases Peerlist.mem_updateOrPush hf with hf | rfl
      · exact hm.disjoint e he f hf
      · exact hnotWhite e he
    white_limit := hm.white_limit
    gray_limit := Peerlist.length_updateOrPush_le hm.gray_limit
    allowed_white := hm.allowed_white
    allowed_gray := fun f hf => by
      rcases Peerlist.mem_updateOrPush hf with hf | rfl
      · exact hm.allowed_gray f hf
      · exact hallowed }

theorem wellFormed_mergePeerlist (hm : WellFormed m) (outerBs : List PeerlistEntry) :
    WellFormed (mergePeerlist sort m outerBs).2 := by
  -- each peer of the list is one gray append; the trim after them keeps part of the gray list
  have hfold : ∀ (m : PeerlistManager), WellFormed m →
      WellFormed (outerBs.foldl (fun m be => (appendWithPeerGray sort m be).2) m) := by
    induction outerBs with
    | nil => exact fun _ hm => hm
    | cons be outerBs ih => exact fun m hm => ih _ (wellFormed_appendWithPeerGray hm be)
  exact (hfold m hm).gray_subperm Peerlist.trim_subperm

theorem wellFormed_step (hm : WellFormed m) : ∀ call, WellFormed (step sort m call)
  | .appendWithPeerWhite newPeer => wellFormed_appendWithPeerWhite hm newPeer
  | .appendWithPeerGray newPeer => wellFormed_appendWithPeerGray hm newPeer
  | .setPeerJustSeen _ _ _ => wellFormed_appendWithPeerWhite hm _
  | .mergePeerlist outerBs => wellFormed_mergePeerlist hm outerBs
  | .getPeerlistHead _ => hm.white_subperm (sort.perm _).subperm
  | .getWhitePeerByIndex i => hm.white_subperm (Peerlist.get_perm i).subperm
  | .getGrayPeerByIndex i => hm.gray_subperm (Peerlist.get_perm i).subperm

theorem wellFormed_run (hm : WellFormed m) (calls : List Call) : WellFormed (run sort m calls) := by
  induction calls generalizing m with
  | nil => exact hm
  | cons call calls ih => exact ih (wellFormed_step hm call)

/-! ## The setting of local addresses -/

theorem allowLocalIp_appendWithPeerWhite (newPeer : PeerlistEntry) :
    (appendWithPeerWhite sort m newPeer).2.allowLocalIp = m.allowLocalIp := by
  unfold appendWithPeerWhite
  split_ifs <;> rfl

theorem allowLocalIp_appendWithPeerGray (newPeer : PeerlistEntry) :
    (appendWithPeerGray sort m newPeer).2.allowLocalIp = m.allowLocalIp := by
  unfold appendWithPeerGray
  split_ifs <;> rfl

theorem allowLocalIp_mergePeerlist (outerBs : List PeerlistEntry) :
    (mergePeerlist sort m outerBs).2.allowLocalIp = m.allowLocalIp := by
  induction outerBs generalizing m with
  | nil => rfl
  | cons be outerBs ih =>
    exact (ih (m := (appendWithPeerGray sort m be).2)).trans (allowLocalIp_appendWithPeerGray be)

theorem allowLocalIp_step : ∀ call, (step sort m call).allowLocalIp = m.allowLocalIp
  | .appendWithPeerWhite newPeer => allowLocalIp_appendWithPeerWhite newPeer
  | .appendWithPeerGray newPeer => allowLocalIp_appendWithPeerGray newPeer
  | .setPeerJustSeen _ _ _ => allowLocalIp_appendWithPeerWhite _
  | .mergePeerlist outerBs => allowLocalIp_mergePeerlist outerBs
  | .getPeerlistHead _ => rfl
  | .getWhitePeerByIndex _ => rfl
  | .getGrayPeerByIndex _ => rfl

theorem allowLocalIp_run (calls : List Call) : (run sort m calls).allowLocalIp = m.allowLocalIp := by
  induction calls generalizing m with
  | nil => rfl
  | cons call calls ih => exact ih.trans (allowLocalIp_step call)

/-- From empty lists, after every run of calls: `m_allow_local_ip` is still the one the manager
was started with, and the lists are well formed under it; and every trim of a list, the ones in
both writers and in `merge_peerlist` included, keeps entries at least as new as every entry it
drops. -/
theorem run_keeps_peerlists_wellFormed (sort : SortBy NewerFirst) (allowLocalIp : Bool)
    (calls : List Call) :
    (run sort (init allowLocalIp) calls).allowLocalIp = allowLocalIp ∧
      WellFormed (run sort (init allowLocalIp) calls) ∧
      ∀ (maxSize : ℕ) (peers : List PeerlistEntry), ∃ dropped : List PeerlistEntry,
        (Peerlist.trim sort maxSize peers ++ dropped).Perm peers ∧
          ∀ kept ∈ Peerlist.trim sort maxSize peers, ∀ entry ∈ dropped,
            entry.lastSeen ≤ kept.lastSeen :=
  ⟨allowLocalIp_run calls, wellFormed_run (wellFormed_init allowLocalIp) calls,
    Peerlist.trim_drops_older⟩

end PeerlistManager

end CryptoNote
