import MxExchange.Collections.FirstOccurrences
import MxExchange.Collections.Outcome
import MxExchange.Text.Buffer
import MxExchange.Text.Split

/-!
# `escrow.abi.service.ts`: addresses in storage keys

The storage of the escrow contract has a key for each receiver and index, with
the sender as its value, and one for each address with permissions. The service
takes the addresses out of the keys by searching for the names of the mappers, on
hexadecimal text, in all keys of the contract.

An address is any 32 bytes, and so its text may have the name of a mapper in it,
at a whole byte or between two bytes. The text is then cut short, and reading it
fails. Other keys with the names in them are read as well. `decodesExactly_iff`
says when none of this happens.
-/

namespace MxExchange.Escrow

open MxExchange.Collections MxExchange.Text

/-! ## Addresses -/

/-- The 32 bytes of an address. -/
structure PublicKey where
  bytes : List Byte
  length_eq : bytes.length = 32
  lt : ∀ b ∈ bytes, b < 256

def PublicKey.hex (publicKey : PublicKey) : List Char := bufferToHex publicKey.bytes

/-- Two digits a byte. -/
theorem PublicKey.length_hex (publicKey : PublicKey) : publicKey.hex.length = 64 := by
  rw [hex, length_bufferToHex, publicKey.length_eq]

/-- Addresses in the network library: what it reads is the text of 32 bytes, and
less text is refused. -/
structure AddressLibrary where
  Address : Type
  ofPublicKey : PublicKey → Address
  fromHex : List Char → Except String Address
  bech32 : Address → String
  fromHex_hex : ∀ publicKey, fromHex publicKey.hex = .ok (ofPublicKey publicKey)
  fromHex_short : ∀ text, text.length < 64 → ∃ message, fromHex text = .error message

/-! ## Keys -/

/-- `Buffer.from(name).toString('hex')`, for a name in ASCII. -/
def hexOfName (name : String) : List Char := bufferToHex (name.toList.map Char.toNat)

/-- The names of the mappers, as they are in the keys. -/
def allSendersHex : List Char := hexOfName "allSenders"

def itemHex : List Char := hexOfName ".item"

def permissionsHex : List Char := hexOfName "permissions"

/-- The keys of a contract with their values, as an object has them. -/
abbrev StorageKeys := List (List Char × List Char)

/-- The key of a sender of a receiver. -/
def entryKey (receiver : PublicKey) (index : List Char) : List Char :=
  allSendersHex ++ (receiver.hex ++ itemHex ++ index)

/-- The key of the permissions of an address. -/
def permissionsKey (address : PublicKey) : List Char := permissionsHex ++ address.hex

/-! ## The service -/

/-- A value that is read further on. -/
def defined {α : Type} : Option α → Except String α
  | some value => .ok value
  | none => .error "Cannot read properties of undefined"

namespace AddressLibrary

variable (library : AddressLibrary)

/-- A round of the loop over the keys, with what it pushes. -/
def receiversOfKey (senderAddress : String) (entry : List Char × List Char) :
    Except String (List String) :=
  if includes entry.1 allSendersHex && includes entry.1 itemHex then do
    let holder ← library.fromHex entry.2
    if library.bech32 holder = senderAddress then do
      let receiverHex ← defined (between allSendersHex itemHex entry.1)
      let receiver ← library.fromHex receiverHex
      return [library.bech32 receiver]
    else return []
  else return []

/-- Repeated addresses are left out (`indexOf(v) === i`). -/
def getAllReceiversRaw (hexValues : StorageKeys) (senderAddress : String) :
    Except String (List String) := do
  let receivers ← hexValues.mapM (library.receiversOfKey senderAddress)
  return receivers.flatten.eraseDups

/-- A round of the loop over the keys with permissions. -/
def addressesOfKey (entry : List Char × List Char) : Except String (List String) :=
  if includes entry.1 permissionsHex then do
    let addressHex ← defined (split permissionsHex entry.1)[1]?
    let address ← library.fromHex addressHex
    return [library.bech32 address]
  else return []

/-- Repeated addresses are kept. -/
def getAllAddressesWithPermissionsRaw (hexValues : StorageKeys) : Except String (List String) := do
  let addresses ← hexValues.mapM library.addressesOfKey
  return addresses.flatten

/-! ## What is stored -/

/-- A value is the text of the sender. -/
def Holds (value : List Char) (senderAddress : String) : Prop :=
  ∃ holder, library.fromHex value = .ok holder ∧ library.bech32 holder = senderAddress

/-- A receiver has an entry that holds the sender. -/
def HasEntry (hexValues : StorageKeys) (senderAddress : String) (receiver : PublicKey) : Prop :=
  ∃ index value, (entryKey receiver index, value) ∈ hexValues ∧ library.Holds value senderAddress

/-- An address is stored with permissions. -/
def HasPermissions (hexValues : StorageKeys) (address : PublicKey) : Prop :=
  ∃ value, (permissionsKey address, value) ∈ hexValues

/-- The text of an address. -/
def addressText (publicKey : PublicKey) : String := library.bech32 (library.ofPublicKey publicKey)

/-- What is asked of the service: it does not fail, and what it recovers is
what is stored. -/
structure DecodesExactly (hexValues : StorageKeys) (senderAddress : String) : Prop where
  receivers : ∃ receivers, library.getAllReceiversRaw hexValues senderAddress = .ok receivers ∧
    receivers.Nodup ∧ ∀ text, text ∈ receivers ↔
      ∃ receiver, library.HasEntry hexValues senderAddress receiver ∧
        text = library.addressText receiver
  addresses : ∃ addresses, library.getAllAddressesWithPermissionsRaw hexValues = .ok addresses ∧
    ∀ text, text ∈ addresses ↔
      ∃ address, HasPermissions hexValues address ∧ text = library.addressText address

/-! ## When it is recovered -/

/-- A key with both names in it. -/
def Marked (key : List Char) : Prop := allSendersHex <:+: key ∧ itemHex <:+: key

/-- Every key with both names has an address as its value; no receiver of the
sender has one of the names in its text; and in any other key with both names that
has the sender as its value stands a receiver of the sender. -/
structure ReceiversReadable (hexValues : StorageKeys) (senderAddress : String) : Prop where
  values : ∀ entry ∈ hexValues, Marked entry.1 → ∃ holder, library.fromHex entry.2 = .ok holder
  entries : ∀ receiver, library.HasEntry hexValues senderAddress receiver →
    ¬ allSendersHex <:+: receiver.hex ∧ ¬ itemHex <:+: receiver.hex
  others : ∀ entry ∈ hexValues, Marked entry.1 →
    (∀ receiver index, entry.1 ≠ entryKey receiver index) →
    library.Holds entry.2 senderAddress →
    ∃ receiverHex address receiver, between allSendersHex itemHex entry.1 = some receiverHex ∧
      library.fromHex receiverHex = .ok address ∧
      library.HasEntry hexValues senderAddress receiver ∧
      library.bech32 address = library.addressText receiver

/-- No address with permissions has their name in its text, and in any other
key with the name stands an address with permissions. -/
structure PermissionsReadable (hexValues : StorageKeys) : Prop where
  entries : ∀ address, HasPermissions hexValues address → ¬ permissionsHex <:+: address.hex
  others : ∀ entry ∈ hexValues, permissionsHex <:+: entry.1 →
    (∀ address, entry.1 ≠ permissionsKey address) →
    ∃ addressHex address publicKey, (split permissionsHex entry.1)[1]? = some addressHex ∧
      library.fromHex addressHex = .ok address ∧ HasPermissions hexValues publicKey ∧
      library.bech32 address = library.addressText publicKey

/-! ## The names of the mappers -/

/-- The two names are apart enough for `between`. -/
theorem separate_names : Separate allSendersHex itemHex where
  first_last := ⟨"616c6c53656e6465727".toList, '3', by decide, by decide⟩
  second_last := ⟨"2e6974656".toList, 'd', by decide, by decide, by decide⟩

theorem permissionsHex_ne : permissionsHex ≠ [] := by decide

/-- The key of a sender is searched. -/
theorem marked_entryKey (receiver : PublicKey) (index : List Char) :
    Marked (entryKey receiver index) := by
  refine ⟨(List.prefix_append _ _).isInfix, ?_⟩
  exact (List.infix_append receiver.hex itemHex index).trans (List.suffix_append _ _).isInfix

/-- Where a name is in it, what is cut out is too short for an address. -/
theorem between_entryKey (receiver : PublicKey) (index : List Char) :
    (¬ allSendersHex <:+: receiver.hex ∧ ¬ itemHex <:+: receiver.hex ∧
        between allSendersHex itemHex (entryKey receiver index) = some receiver.hex) ∨
      ∃ part, between allSendersHex itemHex (entryKey receiver index) = some part ∧
        part.length < 64 := by
  by_cases hname : allSendersHex <:+: receiver.hex ∨ itemHex <:+: receiver.hex
  · obtain ⟨part, hpart, hlength⟩ := length_between_lt separate_names hname index
    rw [receiver.length_hex] at hlength
    exact Or.inr ⟨part, hpart, hlength⟩
  · obtain ⟨hfirst, hsecond⟩ := not_or.mp hname
    exact Or.inl ⟨hfirst, hsecond, between_field separate_names hfirst hsecond⟩

/-- Behind the name stands the address, unless it has the name in it. -/
theorem getElem?_split_permissionsKey (address : PublicKey) :
    (¬ permissionsHex <:+: address.hex ∧
        (split permissionsHex (permissionsKey address))[1]? = some address.hex) ∨
      ∃ part, (split permissionsHex (permissionsKey address))[1]? = some part ∧
        part.length < 64 := by
  have hpart := getElem?_one_split_append permissionsHex_ne address.hex
  by_cases hname : permissionsHex <:+: address.hex
  · have hlength := length_upTo_lt permissionsHex_ne hname []
    rw [List.append_nil, address.length_hex] at hlength
    exact Or.inr ⟨_, hpart, hlength⟩
  · rw [upTo_of_absent hname] at hpart
    exact Or.inl ⟨hname, hpart⟩

/-! ## A round -/

section Round

variable {library} {senderAddress : String} {entry : List Char × List Char} {part : List String}

/-- The condition of the loop. -/
theorem marked_iff (key : List Char) :
    (includes key allSendersHex && includes key itemHex) = true ↔ Marked key := by
  rw [includes, includes, Bool.and_eq_true, decide_eq_true_iff, decide_eq_true_iff, Marked]

/-- What is read as an address has enough digits. -/
theorem length_of_fromHex_ok {text : List Char} {address : library.Address}
    (h : library.fromHex text = .ok address) : 64 ≤ text.length := by
  by_contra hshort
  obtain ⟨message, herror⟩ := library.fromHex_short text (by omega)
  rw [h] at herror
  cases herror

theorem defined_ok {α : Type} {found : Option α} {value : α} (h : defined found = .ok value) :
    found = some value := by
  cases found with
  | none => cases h
  | some value' => rw [Except.ok.inj h]

/-- Other keys are skipped. -/
theorem receiversOfKey_of_not_marked (h : ¬ Marked entry.1) :
    library.receiversOfKey senderAddress entry = .ok [] := if_neg (mt (marked_iff _).mp h)

/-- Entries of other senders are read, but add nothing. -/
theorem receiversOfKey_of_not_holds {holder : library.Address}
    (hvalue : library.fromHex entry.2 = .ok holder) (h : library.bech32 holder ≠ senderAddress) :
    library.receiversOfKey senderAddress entry = .ok [] := by
  unfold receiversOfKey
  split
  next =>
    rw [hvalue]
    exact if_neg h
  next => rfl

/-- An entry of the sender adds what stands between the names. -/
theorem receiversOfKey_of_holds (hmarked : Marked entry.1)
    (hholds : library.Holds entry.2 senderAddress) {receiverHex : List Char}
    {address : library.Address}
    (hbetween : between allSendersHex itemHex entry.1 = some receiverHex)
    (haddress : library.fromHex receiverHex = .ok address) :
    library.receiversOfKey senderAddress entry = .ok [library.bech32 address] := by
  obtain ⟨holder, hvalue, hholder⟩ := hholds
  have hfound : defined (between allSendersHex itemHex entry.1) = .ok receiverHex := by
    rw [hbetween]
    rfl
  unfold receiversOfKey
  rw [if_pos ((marked_iff _).mpr hmarked), hvalue]
  refine (if_pos hholder).trans ?_
  rw [hfound]
  show (library.fromHex receiverHex >>= fun receiver => pure [library.bech32 receiver]) = _
  rw [haddress]
  rfl

/-- All that a round can do without an error. -/
theorem receiversOfKey_ok (h : library.receiversOfKey senderAddress entry = .ok part) :
    (¬ Marked entry.1 ∧ part = []) ∨
    (Marked entry.1 ∧ (∃ holder, library.fromHex entry.2 = .ok holder) ∧
      ((¬ library.Holds entry.2 senderAddress ∧ part = []) ∨
        (library.Holds entry.2 senderAddress ∧ ∃ receiverHex address,
          between allSendersHex itemHex entry.1 = some receiverHex ∧
          library.fromHex receiverHex = .ok address ∧ part = [library.bech32 address]))) := by
  unfold receiversOfKey at h
  split at h
  next hmarked =>
    obtain ⟨holder, hvalue, h⟩ := bind_eq_ok.mp h
    refine Or.inr ⟨(marked_iff _).mp hmarked, ⟨holder, hvalue⟩, ?_⟩
    split at h
    next hholder =>
      obtain ⟨receiverHex, hfound, h⟩ := bind_eq_ok.mp h
      obtain ⟨address, haddress, h⟩ := bind_eq_ok.mp h
      exact Or.inr ⟨⟨holder, hvalue, hholder⟩, receiverHex, address, defined_ok hfound, haddress,
        (pure_eq_ok.mp h).symm⟩
    next hholder =>
      refine Or.inl ⟨?_, (pure_eq_ok.mp h).symm⟩
      rintro ⟨holder', hvalue', hholder'⟩
      rw [hvalue] at hvalue'
      exact hholder (Except.ok.inj hvalue' ▸ hholder')
  next hmarked => exact Or.inl ⟨mt (marked_iff _).mpr hmarked, (pure_eq_ok.mp h).symm⟩

/-- Other keys are skipped. -/
theorem addressesOfKey_of_absent (h : ¬ permissionsHex <:+: entry.1) :
    library.addressesOfKey entry = .ok [] :=
  if_neg fun hin => h (of_decide_eq_true hin)

/-- A key with the name adds what stands behind it. -/
theorem addressesOfKey_of_infix (h : permissionsHex <:+: entry.1) {addressHex : List Char}
    {address : library.Address} (hsplit : (split permissionsHex entry.1)[1]? = some addressHex)
    (haddress : library.fromHex addressHex = .ok address) :
    library.addressesOfKey entry = .ok [library.bech32 address] := by
  unfold addressesOfKey
  rw [hsplit]
  refine (if_pos (decide_eq_true h)).trans ?_
  show (library.fromHex addressHex >>= fun address => pure [library.bech32 address]) = _
  rw [haddress]
  rfl

/-- What a round that does not fail has done. -/
theorem addressesOfKey_ok (h : library.addressesOfKey entry = .ok part) :
    (¬ permissionsHex <:+: entry.1 ∧ part = []) ∨
    (permissionsHex <:+: entry.1 ∧ ∃ addressHex address,
      (split permissionsHex entry.1)[1]? = some addressHex ∧
      library.fromHex addressHex = .ok address ∧ part = [library.bech32 address]) := by
  unfold addressesOfKey at h
  split at h
  next hin =>
    obtain ⟨addressHex, hfound, h⟩ := bind_eq_ok.mp h
    obtain ⟨address, haddress, h⟩ := bind_eq_ok.mp h
    exact Or.inr ⟨of_decide_eq_true hin, addressHex, address, defined_ok hfound, haddress,
      (pure_eq_ok.mp h).symm⟩
  next hin => exact Or.inl ⟨fun h => hin (decide_eq_true h), (pure_eq_ok.mp h).symm⟩

end Round

/-! ## All rounds -/

section Rounds

variable {library} {hexValues : StorageKeys} {senderAddress : String}

/-- The entry of a receiver with none of the names in its text. -/
theorem receiversOfKey_entryKey {receiver : PublicKey} {index value : List Char}
    (hfirst : ¬ allSendersHex <:+: receiver.hex) (hsecond : ¬ itemHex <:+: receiver.hex)
    (hholds : library.Holds value senderAddress) :
    library.receiversOfKey senderAddress (entryKey receiver index, value) =
      .ok [library.addressText receiver] :=
  receiversOfKey_of_holds (marked_entryKey receiver index) hholds
    (between_field separate_names hfirst hsecond) (library.fromHex_hex receiver)

/-- No round fails, and what it adds is a receiver of the sender. -/
theorem ReceiversReadable.round (h : library.ReceiversReadable hexValues senderAddress)
    {entry : List Char × List Char} (hentry : entry ∈ hexValues) :
    ∃ part, library.receiversOfKey senderAddress entry = .ok part ∧
      ∀ text ∈ part, ∃ receiver, library.HasEntry hexValues senderAddress receiver ∧
        text = library.addressText receiver := by
  by_cases hmarked : Marked entry.1
  swap
  · exact ⟨[], receiversOfKey_of_not_marked hmarked, fun text htext => by cases htext⟩
  obtain ⟨holder, hvalue⟩ := h.values entry hentry hmarked
  by_cases hholder : library.bech32 holder = senderAddress
  swap
  · exact ⟨[], receiversOfKey_of_not_holds hvalue hholder, fun text htext => by cases htext⟩
  have hholds : library.Holds entry.2 senderAddress := ⟨holder, hvalue, hholder⟩
  by_cases hkey : ∃ receiver index, entry.1 = entryKey receiver index
  · obtain ⟨receiver, index, hkey⟩ := hkey
    obtain ⟨key, value⟩ := entry
    dsimp only at hkey
    subst hkey
    have hreceiver : library.HasEntry hexValues senderAddress receiver :=
      ⟨index, value, hentry, hholds⟩
    obtain ⟨hfirst, hsecond⟩ := h.entries receiver hreceiver
    refine ⟨_, receiversOfKey_entryKey hfirst hsecond hholds, fun text htext => ?_⟩
    exact ⟨receiver, hreceiver, List.mem_singleton.mp htext⟩
  · have hother : ∀ receiver index, entry.1 ≠ entryKey receiver index :=
      fun receiver index heq => hkey ⟨receiver, index, heq⟩
    obtain ⟨receiverHex, address, receiver, hbetween, haddress, hreceiver, htext⟩ :=
      h.others entry hentry hmarked hother hholds
    refine ⟨_, receiversOfKey_of_holds hmarked hholds hbetween haddress, fun text hmem => ?_⟩
    exact ⟨receiver, hreceiver, (List.mem_singleton.mp hmem).trans htext⟩

/-- Every receiver of the sender is added by some round. -/
theorem ReceiversReadable.exists_round (h : library.ReceiversReadable hexValues senderAddress)
    (text : String) (htext : ∃ receiver, library.HasEntry hexValues senderAddress receiver ∧
      text = library.addressText receiver) :
    ∃ entry ∈ hexValues, ∃ part,
      library.receiversOfKey senderAddress entry = .ok part ∧ text ∈ part := by
  obtain ⟨receiver, hreceiver, rfl⟩ := htext
  obtain ⟨hfirst, hsecond⟩ := h.entries receiver hreceiver
  obtain ⟨index, value, hentry, hholds⟩ := hreceiver
  exact ⟨_, hentry, _, receiversOfKey_entryKey hfirst hsecond hholds, List.mem_singleton_self _⟩

/-- So the loop recovers the receivers. -/
theorem getAllReceiversRaw_of_readable (h : library.ReceiversReadable hexValues senderAddress) :
    ∃ receivers, library.getAllReceiversRaw hexValues senderAddress = .ok receivers ∧
      receivers.Nodup ∧ ∀ text, text ∈ receivers ↔
        ∃ receiver, library.HasEntry hexValues senderAddress receiver ∧
          text = library.addressText receiver := by
  obtain ⟨parts, hparts, hmem⟩ := exists_flatten_mapM (fun _ => h.round) h.exists_round
  refine ⟨parts.flatten.eraseDups, bind_eq_ok.mpr ⟨parts, hparts, rfl⟩, nodup_eraseDups _, ?_⟩
  intro text
  rw [List.mem_eraseDups, hmem]

/-- If it recovers them, everything could be read. -/
theorem readable_of_getAllReceiversRaw {receivers : List String}
    (hrun : library.getAllReceiversRaw hexValues senderAddress = .ok receivers)
    (hmem : ∀ text ∈ receivers, ∃ receiver, library.HasEntry hexValues senderAddress receiver ∧
      text = library.addressText receiver) :
    library.ReceiversReadable hexValues senderAddress := by
  obtain ⟨parts, hparts, hpure⟩ := bind_eq_ok.mp hrun
  have hpushed : ∀ part ∈ parts, ∀ text ∈ part, text ∈ receivers := by
    intro part hpart text htext
    rw [← pure_eq_ok.mp hpure, List.mem_eraseDups]
    exact List.mem_flatten.mpr ⟨part, hpart, htext⟩
  refine { values := ?_, entries := ?_, others := ?_ }
  -- the reads that succeed have read every value they had to, and every receiver is
  -- pushed
  · intro entry hentry hmarked
    obtain ⟨part, -, hround⟩ := ok_of_mapM_ok hparts hentry
    rcases receiversOfKey_ok hround with ⟨hnot, -⟩ | ⟨-, hvalue, -⟩
    · exact absurd hmarked hnot
    · exact hvalue
  · rintro receiver ⟨index, value, hentry, hholds⟩
    obtain ⟨part, -, hround⟩ := ok_of_mapM_ok hparts hentry
    rcases receiversOfKey_ok hround with ⟨hnot, -⟩ | ⟨-, -, ⟨hnot, -⟩ | ⟨-, hread⟩⟩
    · exact absurd (marked_entryKey receiver index) hnot
    · exact absurd hholds hnot
    · obtain ⟨receiverHex, address, hbetween, haddress, -⟩ := hread
      rcases between_entryKey receiver index with ⟨hfirst, hsecond, -⟩ | ⟨part', hpart', hshort⟩
      · exact ⟨hfirst, hsecond⟩
      -- a key cut short is too short for an address
      · rw [hpart'] at hbetween
        rw [Option.some.inj hbetween] at hshort
        exact absurd (length_of_fromHex_ok haddress) (by omega)
  · intro entry hentry hmarked _ hholds
    obtain ⟨part, hpart, hround⟩ := ok_of_mapM_ok hparts hentry
    rcases receiversOfKey_ok hround with ⟨hnot, -⟩ | ⟨-, -, ⟨hnot, -⟩ | ⟨-, hread⟩⟩
    · exact absurd hmarked hnot
    · exact absurd hholds hnot
    · obtain ⟨receiverHex, address, hbetween, haddress, rfl⟩ := hread
      obtain ⟨receiver, hreceiver, htext⟩ :=
        hmem _ (hpushed _ hpart _ (List.mem_singleton_self _))
      exact ⟨receiverHex, address, receiver, hbetween, haddress, hreceiver, htext⟩

/-- The key of an address without the name in its text. -/
theorem addressesOfKey_permissionsKey {address : PublicKey} {value : List Char}
    (hname : ¬ permissionsHex <:+: address.hex) :
    library.addressesOfKey (permissionsKey address, value) =
      .ok [library.addressText address] := by
  have hsplit : (split permissionsHex (permissionsKey address))[1]? = some address.hex := by
    rw [permissionsKey, getElem?_one_split_append permissionsHex_ne, upTo_of_absent hname]
  have hmarker : permissionsHex <:+: permissionsKey address := (List.prefix_append _ _).isInfix
  exact addressesOfKey_of_infix hmarker hsplit (library.fromHex_hex address)

/-- No round fails, and what it adds is an address with permissions. -/
theorem PermissionsReadable.round (h : library.PermissionsReadable hexValues)
    {entry : List Char × List Char} (hentry : entry ∈ hexValues) :
    ∃ part, library.addressesOfKey entry = .ok part ∧
      ∀ text ∈ part, ∃ address, HasPermissions hexValues address ∧
        text = library.addressText address := by
  by_cases hin : permissionsHex <:+: entry.1
  swap
  · exact ⟨[], addressesOfKey_of_absent hin, fun text htext => by cases htext⟩
  by_cases hkey : ∃ address, entry.1 = permissionsKey address
  · obtain ⟨address, hkey⟩ := hkey
    obtain ⟨key, value⟩ := entry
    dsimp only at hkey
    subst hkey
    have haddress : HasPermissions hexValues address := ⟨value, hentry⟩
    refine ⟨_, addressesOfKey_permissionsKey (h.entries address haddress), fun text htext => ?_⟩
    exact ⟨address, haddress, List.mem_singleton.mp htext⟩
  · obtain ⟨addressHex, address, publicKey, hsplit, haddress, hpermissions, htext⟩ :=
      h.others entry hentry hin fun address heq => hkey ⟨address, heq⟩
    refine ⟨_, addressesOfKey_of_infix hin hsplit haddress, fun text hmem => ?_⟩
    exact ⟨publicKey, hpermissions, (List.mem_singleton.mp hmem).trans htext⟩

/-- Every address with permissions is added by some round. -/
theorem PermissionsReadable.exists_round (h : library.PermissionsReadable hexValues)
    (text : String)
    (htext : ∃ address, HasPermissions hexValues address ∧ text = library.addressText address) :
    ∃ entry ∈ hexValues, ∃ part, library.addressesOfKey entry = .ok part ∧ text ∈ part := by
  obtain ⟨address, haddress, rfl⟩ := htext
  have hname := h.entries address haddress
  obtain ⟨value, hentry⟩ := haddress
  exact ⟨_, hentry, _, addressesOfKey_permissionsKey hname, List.mem_singleton_self _⟩

/-- So this loop recovers its addresses. -/
theorem getAllAddressesWithPermissionsRaw_of_readable (h : library.PermissionsReadable hexValues) :
    ∃ addresses, library.getAllAddressesWithPermissionsRaw hexValues = .ok addresses ∧
      ∀ text, text ∈ addresses ↔
        ∃ address, HasPermissions hexValues address ∧ text = library.addressText address := by
  obtain ⟨parts, hparts, hmem⟩ := exists_flatten_mapM (fun _ => h.round) h.exists_round
  exact ⟨parts.flatten, bind_eq_ok.mpr ⟨parts, hparts, rfl⟩, hmem⟩

/-- And if it does, everything could be read. -/
theorem readable_of_getAllAddressesWithPermissionsRaw {addresses : List String}
    (hrun : library.getAllAddressesWithPermissionsRaw hexValues = .ok addresses)
    (hmem : ∀ text ∈ addresses, ∃ address, HasPermissions hexValues address ∧
      text = library.addressText address) : library.PermissionsReadable hexValues := by
  obtain ⟨parts, hparts, hpure⟩ := bind_eq_ok.mp hrun
  refine { entries := ?_, others := ?_ }
  · rintro address ⟨value, hentry⟩
    obtain ⟨part, -, hround⟩ := ok_of_mapM_ok hparts hentry
    rcases addressesOfKey_ok hround with ⟨hnot, -⟩ | ⟨-, addressHex, text, hsplit, htext, -⟩
    · exact absurd (List.prefix_append _ _).isInfix hnot
    · rcases getElem?_split_permissionsKey address with ⟨hname, -⟩ | ⟨part', hpart', hshort⟩
      · exact hname
      · rw [hpart'] at hsplit
        rw [Option.some.inj hsplit] at hshort
        exact absurd (length_of_fromHex_ok htext) (by omega)
  · intro entry hentry hin _
    obtain ⟨part, hpart, hround⟩ := ok_of_mapM_ok hparts hentry
    rcases addressesOfKey_ok hround with ⟨hnot, -⟩ | ⟨-, addressHex, address, hsplit, haddress, rfl⟩
    · exact absurd hin hnot
    · have hpushed : library.bech32 address ∈ addresses := by
        rw [← pure_eq_ok.mp hpure]
        exact List.mem_flatten.mpr ⟨_, hpart, List.mem_singleton_self _⟩
      obtain ⟨publicKey, hpermissions, htext⟩ := hmem _ hpushed
      exact ⟨addressHex, address, publicKey, hsplit, haddress, hpermissions, htext⟩

end Rounds

/-- **The addresses in the keys of the escrow contract** are recovered exactly
if they can be read out of all keys that are searched. -/
theorem decodesExactly_iff (library : AddressLibrary) (hexValues : StorageKeys)
    (senderAddress : String) :
    library.DecodesExactly hexValues senderAddress ↔
      library.ReceiversReadable hexValues senderAddress ∧
        library.PermissionsReadable hexValues := by
  constructor
  · intro h
    obtain ⟨receivers, hreceivers, -, hexact⟩ := h.receivers
    obtain ⟨addresses, haddresses, hexact'⟩ := h.addresses
    exact ⟨readable_of_getAllReceiversRaw hreceivers fun text => (hexact text).mp,
      readable_of_getAllAddressesWithPermissionsRaw haddresses fun text => (hexact' text).mp⟩
  · rintro ⟨hreceivers, hpermissions⟩
    exact
      { receivers := getAllReceiversRaw_of_readable hreceivers
        addresses := getAllAddressesWithPermissionsRaw_of_readable hpermissions }

end AddressLibrary

/-! ## The network library -/

/-- `bech32` text of 32 bytes, with the letters of the network in front. -/
def bech32Letters : List Char := "qpzry9x8gf2tvdw0s3jn54khce6mua7l".toList

/-- The checksum is a remainder; these are its constants. -/
def bech32Generators : List ℕ := [0x3b6a57b2, 0x26508e6d, 0x1ea119fa, 0x3d4233dd, 0x2a1462b3]

/-- The remainder with one group more. -/
def polymodStep (checksum value : ℕ) : ℕ :=
  bech32Generators.zipIdx.foldl
    (fun sum (generator, i) => if (checksum >>> 25).testBit i then sum ^^^ generator else sum)
    (((checksum &&& 0x1ffffff) <<< 5) ^^^ value)

/-- `bech32.toWords`: groups of five bits, the last one filled up. -/
def toWords (bytes : List Byte) : List ℕ :=
  let bits := 8 * bytes.length
  let words := (bits + 4) / 5
  let value := bytes.foldl (fun value b => 256 * value + b) 0 <<< (5 * words - bits)
  (List.range words).map fun i => (value >>> (5 * (words - 1 - i))) % 32

/-- The prefix, the groups as letters, and six letters of checksum. -/
def bech32Encode (hrp : List Char) (words : List ℕ) : String :=
  let letters := hrp.map Char.toNat
  let expanded := letters.map (· >>> 5) ++ 0 :: letters.map (· % 32)
  let checksum := (expanded ++ words ++ List.replicate 6 0).foldl polymodStep 1 ^^^ 1
  let digits := words ++ (List.range 6).map fun i => (checksum >>> (5 * (5 - i))) % 32
  String.ofList (hrp ++ '1' :: digits.map fun digit => bech32Letters.getD digit ' ')

/-- Text is an address if it can be read as 32 bytes. -/
def networkLibrary : AddressLibrary where
  Address := List Byte
  ofPublicKey := fun publicKey => publicKey.bytes
  fromHex := fun text =>
    if (bufferFromHex text).length = 32 then .ok (bufferFromHex text)
    else .error ("Cannot create address from: " ++ String.ofList text)
  bech32 := fun bytes => bech32Encode "erd".toList (toWords bytes)
  fromHex_hex := fun publicKey => by
    have hbytes : bufferFromHex publicKey.hex = publicKey.bytes :=
      bufferFromHex_bufferToHex publicKey.lt
    rw [hbytes]
    exact if_pos publicKey.length_eq
  fromHex_short := fun text hshort => by
    have hlength := length_bufferFromHex_le text
    exact ⟨_, if_neg (by omega)⟩

/-! The text tells the address. -/

/-- A byte more is a digit to the base of 256. -/
theorem foldl_bytes_append (bytes : List Byte) (b : Byte) (start : ℕ) :
    (bytes ++ [b]).foldl (fun value b => 256 * value + b) start =
      256 * bytes.foldl (fun value b => 256 * value + b) start + b := by
  rw [List.foldl_append]
  rfl

/-- Bytes are determined by their number, if it is known how many there are. -/
theorem foldl_bytes_inj {bytes bytes' : List Byte} (hlength : bytes.length = bytes'.length)
    (hlt : ∀ b ∈ bytes, b < 256) (hlt' : ∀ b ∈ bytes', b < 256)
    (h : bytes.foldl (fun value b => 256 * value + b) 0 =
      bytes'.foldl (fun value b => 256 * value + b) 0) : bytes = bytes' := by
  induction bytes using List.reverseRecOn generalizing bytes' with
  | nil => exact (List.length_eq_zero_iff.mp hlength.symm).symm
  | append_singleton bytes b ih =>
    rcases List.eq_nil_or_concat' bytes' with rfl | ⟨bytes', b', rfl⟩
    · rw [List.length_append] at hlength
      cases hlength
    · rw [foldl_bytes_append, foldl_bytes_append] at h
      have hb := hlt b (List.mem_append_right _ (List.mem_singleton_self b))
      have hb' := hlt' b' (List.mem_append_right _ (List.mem_singleton_self b'))
      have hsplit : ∀ x y c c' : ℕ, c < 256 → c' < 256 → 256 * x + c = 256 * y + c' →
          x = y ∧ c = c' := by omega
      obtain ⟨hvalue, rfl⟩ := hsplit _ _ b b' hb hb' h
      rw [ih (by simpa using hlength) (fun c hc => hlt c (List.mem_append_left _ hc))
        (fun c hc => hlt' c (List.mem_append_left _ hc)) hvalue]

/-- So is a number by its groups of five bits. -/
theorem eq_of_words_eq {words : ℕ} {u v : ℕ} (hu : u < 32 ^ words) (hv : v < 32 ^ words)
    (h : ∀ i < words, (u >>> (5 * (words - 1 - i))) % 32 = (v >>> (5 * (words - 1 - i))) % 32) :
    u = v := by
  induction words generalizing u v with
  | zero =>
    rw [pow_zero] at hu hv
    omega
  | succ words ih =>
    have hdigit := h words (Nat.lt_succ_self _)
    rw [Nat.add_sub_cancel, Nat.sub_self, Nat.mul_zero, Nat.shiftRight_zero,
      Nat.shiftRight_zero] at hdigit
    have hrest : u >>> 5 = v >>> 5 := by
      refine ih ?_ ?_ fun i hi => ?_
      · rw [Nat.shiftRight_eq_div_pow, Nat.div_lt_iff_lt_mul (by norm_num)]
        rwa [pow_succ] at hu
      · rw [Nat.shiftRight_eq_div_pow, Nat.div_lt_iff_lt_mul (by norm_num)]
        rwa [pow_succ] at hv
      · have hnext := h i (Nat.lt_succ_of_lt hi)
        rw [← Nat.shiftRight_add, ← Nat.shiftRight_add,
          show 5 + 5 * (words - 1 - i) = 5 * (words + 1 - 1 - i) by omega]
        exact hnext
    rw [Nat.shiftRight_eq_div_pow, Nat.shiftRight_eq_div_pow] at hrest
    omega

/-- No letter stands twice. -/
theorem bech32Letters_inj {digit digit' : ℕ} (h : digit < 32) (h' : digit' < 32)
    (heq : bech32Letters.getD digit ' ' = bech32Letters.getD digit' ' ') : digit = digit' := by
  have hinj : ∀ i : Fin 32, ∀ j : Fin 32,
      bech32Letters.getD i ' ' = bech32Letters.getD j ' ' → i = j := by decide +kernel
  exact congrArg Fin.val (hinj ⟨digit, h⟩ ⟨digit', h'⟩ heq)

/-- The words stand between the letters of the network and six digits of a checksum. -/
theorem words_of_bech32Encode {hrp : List Char} {words words' : List ℕ}
    (hlength : words.length = words'.length) (hlt : ∀ word ∈ words, word < 32)
    (hlt' : ∀ word ∈ words', word < 32)
    (h : bech32Encode hrp words = bech32Encode hrp words') : words = words' := by
  have hlist := congrArg String.toList h
  unfold bech32Encode at hlist
  dsimp only at hlist
  rw [String.toList_ofList, String.toList_ofList] at hlist
  have hdigits := (List.cons.inj (List.append_cancel_left hlist)).2
  rw [List.map_append, List.map_append] at hdigits
  have hletters := (List.append_inj hdigits (by simpa using hlength)).1
  refine List.ext_getElem hlength fun i hi hi' => ?_
  refine bech32Letters_inj (hlt _ (List.getElem_mem hi)) (hlt' _ (List.getElem_mem hi')) ?_
  have hletter := congrArg (·[i]?) hletters
  simpa [hi, hi'] using hletter

theorem foldl_bytes_lt {bytes : List Byte} (hlt : ∀ b ∈ bytes, b < 256) :
    bytes.foldl (fun value b => 256 * value + b) 0 < 256 ^ bytes.length := by
  induction bytes using List.reverseRecOn with
  | nil => exact Nat.one_pos
  | append_singleton bytes b ih =>
    have hb := hlt b (List.mem_append_right _ (List.mem_singleton_self b))
    have hfront := ih fun c hc => hlt c (List.mem_append_left _ hc)
    rw [foldl_bytes_append, List.length_append, List.length_singleton, pow_succ]
    have hstep : ∀ x c m : ℕ, x < m → c < 256 → 256 * x + c < m * 256 := by omega
    exact hstep _ b _ hfront hb

/-- 32 bytes are 52 words, of which the last one has four bits more than are left. -/
theorem value_of_toWords {bytes bytes' : List Byte} (hlength : bytes.length = 32)
    (hlength' : bytes'.length = 32) (hlt : ∀ b ∈ bytes, b < 256) (hlt' : ∀ b ∈ bytes', b < 256)
    (h : toWords bytes = toWords bytes') :
    bytes.foldl (fun value b => 256 * value + b) 0 =
      bytes'.foldl (fun value b => 256 * value + b) 0 := by
  unfold toWords at h
  rw [hlength, hlength'] at h
  have hbound := foldl_bytes_lt hlt
  have hbound' := foldl_bytes_lt hlt'
  rw [hlength] at hbound
  rw [hlength'] at hbound'
  generalize bytes.foldl (fun value b => 256 * value + b) 0 = u at h hbound ⊢
  generalize bytes'.foldl (fun value b => 256 * value + b) 0 = v at h hbound' ⊢
  have hshift : u <<< 4 = v <<< 4 := by
    have hroom : ∀ x : ℕ, x < 256 ^ 32 → x * 2 ^ 4 < 32 ^ 52 := by
      intro x hx
      omega
    refine @eq_of_words_eq 52 _ _ ?_ ?_ fun i hi => ?_
    · rw [Nat.shiftLeft_eq]
      exact hroom u hbound
    · rw [Nat.shiftLeft_eq]
      exact hroom v hbound'
    · have hword := congrArg (·[i]?) h
      simpa [hi] using hword
  rw [Nat.shiftLeft_eq, Nat.shiftLeft_eq] at hshift
  exact Nat.eq_of_mul_eq_mul_right (by norm_num) hshift

theorem toWords_lt (bytes : List Byte) : ∀ word ∈ toWords bytes, word < 32 := by
  intro word hword
  obtain ⟨i, -, rfl⟩ := List.mem_map.mp hword
  exact Nat.mod_lt _ (by norm_num)

/-- Two addresses differ in their texts. -/
theorem addressText_injective : Function.Injective networkLibrary.addressText := by
  intro publicKey publicKey' h
  obtain ⟨bytes, hlength, hlt⟩ := publicKey
  obtain ⟨bytes', hlength', hlt'⟩ := publicKey'
  have hwords : toWords bytes = toWords bytes' := by
    refine words_of_bech32Encode ?_ (toWords_lt _) (toWords_lt _) h
    simp only [toWords, List.length_map, List.length_range, hlength, hlength']
  have hvalue := foldl_bytes_inj (hlength.trans hlength'.symm) hlt hlt'
    (value_of_toWords hlength hlength' hlt hlt' hwords)
  subst hvalue
  rfl

/-- The address of all zeros. -/
def zeroKey : PublicKey := ⟨List.replicate 32 0, by decide, by decide⟩

example : networkLibrary.addressText zeroKey =
    "erd1qqqqqqqqqqqqqqqqqqqqqqqqqqqqqqqqqqqqqqqqqqqqqqqqqqqq6gq4hu" := by
  decide +kernel

/-- An address that begins with the bytes of `.item`. -/
def itemKey : PublicKey :=
  ⟨".item".toList.map Char.toNat ++ List.replicate 27 0, by decide, by decide⟩

/-- The service fails on the entry of this receiver. -/
theorem not_decodesExactly_sample :
    ¬ networkLibrary.DecodesExactly [(entryKey itemKey "00000001".toList, zeroKey.hex)]
      (networkLibrary.addressText zeroKey) := by
  intro h
  obtain ⟨receivers, hrun, -⟩ := h.receivers
  have hfailed : (networkLibrary.getAllReceiversRaw
      [(entryKey itemKey "00000001".toList, zeroKey.hex)]
      (networkLibrary.addressText zeroKey)).toOption = none := by
    decide +kernel
  rw [hrun] at hfailed
  cases hfailed

end MxExchange.Escrow
