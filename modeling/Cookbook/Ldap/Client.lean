import Cookbook.Library.Number
import Cookbook.Library.Pieces
import Cookbook.Tls.Stream

/-!
# The LDAP client

`cookbook_ldap_bind` sends a bind request and reads one message; behind a successful bind it may ask
for the groups of the user and reads messages until the search is done. Every message is read in exact
lengths, over a socket or over TLS. The server takes everything that is sent.
-/
namespace Cookbook.Ldap

open Library.Text Library.Pieces Tls

/-! ## Tags -/

/-- `BER_BOOLEAN` -/
def berBoolean : UInt8 := 0x01
/-- `BER_INTEGER` -/
def berInteger : UInt8 := 0x02
/-- `BER_OCTET_STR` -/
def berOctetStr : UInt8 := 0x04
/-- `BER_ENUM` -/
def berEnum : UInt8 := 0x0A
/-- `BER_SEQUENCE` -/
def berSequence : UInt8 := 0x30
/-- `BER_SET` -/
def berSet : UInt8 := 0x31
/-- `LDAP_BIND_REQ` -/
def ldapBindReq : UInt8 := 0x60
/-- `LDAP_BIND_RESP` -/
def ldapBindResp : UInt8 := 0x61
/-- `LDAP_SEARCH_REQ` -/
def ldapSearchReq : UInt8 := 0x63
/-- `LDAP_SEARCH_ENTRY` -/
def ldapSearchEntry : UInt8 := 0x64
/-- `LDAP_SEARCH_DONE` -/
def ldapSearchDone : UInt8 := 0x65
/-- `LDAP_AUTH_SIMPLE` -/
def ldapAuthSimple : UInt8 := 0x80
/-- `LDAP_FILTER_EQUALITY` -/
def ldapFilterEquality : UInt8 := 0xA3

/-! ## Writing -/

/-- `ber_write_length` -/
def berWriteLength (length : Nat) : Bytes :=
  if length < 0x80 then [UInt8.ofNat length]
  else if length ≤ 0xFF then [0x81, UInt8.ofNat length]
  else if length ≤ 0xFFFF then [0x82, UInt8.ofNat (length / 256), UInt8.ofNat length]
  else [0x83, UInt8.ofNat (length / 65536), UInt8.ofNat (length / 256), UInt8.ofNat length]

/-- `ber_length_size` -/
def berLengthSize (length : Nat) : Nat :=
  if length < 0x80 then 1 else if length ≤ 0xFF then 2 else if length ≤ 0xFFFF then 3 else 4

/-- `ber_write_tlv` -/
def berWriteTlv (tag : UInt8) (value : Bytes) : Bytes :=
  tag :: (berWriteLength value.length ++ value)

/-- `ber_tlv_size` -/
def berTlvSize (length : Nat) : Nat := 1 + berLengthSize length + length

/-- `ber_write_int` -/
def berWriteInt (value : Nat) : Bytes :=
  berWriteTlv berInteger <|
    if value < 0x80 then [UInt8.ofNat value]
    else if value < 0x8000 then [UInt8.ofNat (value / 256), UInt8.ofNat value]
    else [UInt8.ofNat (value / 65536), UInt8.ofNat (value / 256), UInt8.ofNat value]

/-- `build_bind_request` into a buffer of a size. -/
def buildBindRequest (size msgId : Nat) (dn password : Bytes) : Option Bytes :=
  let bindBody := berTlvSize 1 + berTlvSize dn.length + berTlvSize password.length
  let msgBody := berTlvSize 1 + berTlvSize bindBody
  if size < berTlvSize msgBody then none
  else some (berSequence :: (berWriteLength msgBody ++ berWriteInt msgId ++
    ldapBindReq :: (berWriteLength bindBody ++ berWriteInt 3 ++ berWriteTlv berOctetStr dn ++
      berWriteTlv ldapAuthSimple password)))

/-- The body of a search request. -/
def searchBody (baseDn attr value wantAttr : Bytes) : Bytes :=
  berWriteTlv berOctetStr baseDn ++ berWriteTlv berEnum [2] ++ berWriteTlv berEnum [0] ++
    berWriteInt 1 ++ berWriteInt 10 ++ berWriteTlv berBoolean [0] ++
    ldapFilterEquality :: (berWriteLength (berTlvSize attr.length + berTlvSize value.length) ++
      berWriteTlv berOctetStr attr ++ berWriteTlv berOctetStr value ++
    berSequence :: (berWriteLength (berTlvSize wantAttr.length) ++ berWriteTlv berOctetStr wantAttr))

/-- `build_search_request` into a buffer of a size: the body is put together in 1024 bytes. -/
def buildSearchRequest (size msgId : Nat) (baseDn attr value wantAttr : Bytes) :
    Outcome (Option Bytes) :=
  let body := searchBody baseDn attr value wantAttr
  if 1024 < body.length then .overrun
  else
    let msgBody := berTlvSize 1 + berTlvSize body.length
    if size < berTlvSize msgBody then .done none
    else .done (some (berSequence :: (berWriteLength msgBody ++ berWriteInt msgId ++
      ldapSearchReq :: (berWriteLength body.length ++ body))))

/-! ## Parsing -/

/-- A number from its bytes. -/
def bigEndian (bytes : Bytes) : Nat := bytes.foldl (fun number byte => number * 256 + byte.toNat) 0

/-- `ber_read_length`: the length and the position behind it. -/
def berReadLength (buf : Region) (bufLen pos : Nat) : Nat × Nat :=
  if bufLen ≤ pos then (0, pos)
  else if buf.get pos < 0x80 then ((buf.get pos).toNat, pos + 1)
  else
    let nbytes := (buf.get pos &&& 0x7F).toNat
    if 3 < nbytes ∨ bufLen < pos + 1 + nbytes then (0, pos + 1)
    else (bigEndian (buf.slice (pos + 1) nbytes), pos + 1 + nbytes)

/-- An `int` with a byte behind its bytes. -/
def shiftIn (value : BitVec 32) (byte : UInt8) : BitVec 32 :=
  (value <<< 8) ||| byte.toBitVec.setWidth 32

/-- `ber_read_int`: the number and the position behind it. -/
def berReadInt (buf : Region) (bufLen pos : Nat) : Int × Nat :=
  if bufLen ≤ pos ∨ buf.get pos ≠ berInteger then (-1, pos)
  else
    let (length, start) := berReadLength buf bufLen (pos + 1)
    if length = 0 ∨ bufLen < start + length then (-1, start)
    else
      let sign : BitVec 32 := if buf.get start &&& 0x80 ≠ 0 then BitVec.allOnes 32 else 0
      (((buf.slice start length).foldl shiftIn sign).toInt, start + length)

/-- `parse_bind_response` -/
def parseBindResponse (buf : Region) (bufLen : Nat) : Int :=
  if bufLen = 0 ∨ buf.get 0 ≠ berSequence then -1
  else
    let (seqLen, pos) := berReadLength buf bufLen 1
    if seqLen = 0 then -1
    else
      let (_, pos) := berReadInt buf bufLen pos
      if bufLen ≤ pos ∨ buf.get pos ≠ ldapBindResp then -1
      else
        let (_, pos) := berReadLength buf bufLen (pos + 1)
        if bufLen ≤ pos ∨ buf.get pos ≠ berEnum then -1
        else
          let (rcLen, pos) := berReadLength buf bufLen (pos + 1)
          if rcLen = 0 ∨ bufLen < pos + rcLen then -1
          else
            if (buf.slice pos rcLen).foldl shiftIn 0 = 0 then 0 else -1

/-- A letter in lower case. -/
def lowerAscii (c : UInt8) : UInt8 := if 0x41 ≤ c ∧ c ≤ 0x5A then c + 32 else c

/-- The type of an attribute is the one that is wanted. -/
def attrMatches (type wantAttr : Bytes) : Bool :=
  type == wantAttr || type.length == wantAttr.length &&
    type.map lowerAscii == wantAttr.map lowerAscii

/-- The common name in a value that starts with one; another value is taken whole. -/
def commonName (value : Bytes) : Bytes :=
  match value with
  | c :: n :: 0x3D :: name =>
    if name ≠ [] ∧ (c = 0x43 ∨ c = 0x63) ∧ (n = 0x4E ∨ n = 0x6E) then name.takeWhile (· != comma)
    else value
  | _ => value

/-- A name behind the ones that were found. -/
def appendName (result : Option Bytes) (name : Bytes) : Bytes :=
  match result with
  | none | some [] => name
  | some names => names ++ comma :: name

/-- The values of an attribute up to a position; every round passes a byte. -/
def readValues (buf : Region) (bufLen setEnd : Nat) : Nat → Nat → Option Bytes → Option Bytes
  | 0, _, result => result
  | rounds + 1, pos, result =>
    if setEnd ≤ pos ∨ buf.get pos ≠ berOctetStr then result
    else
      let (length, pos) := berReadLength buf bufLen (pos + 1)
      readValues buf bufLen setEnd rounds (pos + length)
        (some (appendName result (commonName (buf.slice pos length))))

/-- The attributes of an entry up to a position; every round passes a byte. -/
def readAttributes (buf : Region) (bufLen : Nat) (wantAttr : Bytes) (attrsEnd : Nat) :
    Nat → Nat → Option Bytes → Option Bytes
  | 0, _, result => result
  | rounds + 1, pos, result =>
    if attrsEnd ≤ pos ∨ buf.get pos ≠ berSequence then result
    else
      let (paLen, pos) := berReadLength buf bufLen (pos + 1)
      let paEnd := pos + paLen
      if attrsEnd < paEnd then result
      else if buf.get pos ≠ berOctetStr then
        readAttributes buf bufLen wantAttr attrsEnd rounds paEnd result
      else
        let (typeLen, pos) := berReadLength buf bufLen (pos + 1)
        let type := buf.slice pos typeLen
        let pos := pos + typeLen
        if attrMatches type wantAttr = false ∨ paEnd ≤ pos ∨ buf.get pos ≠ berSet then
          readAttributes buf bufLen wantAttr attrsEnd rounds paEnd result
        else
          let (setLen, pos) := berReadLength buf bufLen (pos + 1)
          let setEnd := min (pos + setLen) paEnd
          readAttributes buf bufLen wantAttr attrsEnd rounds paEnd
            (readValues buf bufLen setEnd (setEnd - pos) pos result)

/-- `parse_search_entry_attr` -/
def parseSearchEntryAttr (buf : Region) (bufLen : Nat) (wantAttr : Bytes) : Option Bytes :=
  if bufLen = 0 ∨ buf.get 0 ≠ berSequence then none
  else
    let (_, pos) := berReadLength buf bufLen 1
    let (_, pos) := berReadInt buf bufLen pos
    if bufLen ≤ pos ∨ buf.get pos ≠ ldapSearchEntry then none
    else
      let (entryLen, pos) := berReadLength buf bufLen (pos + 1)
      let entryEnd := pos + entryLen
      if bufLen < entryEnd ∨ entryEnd ≤ pos ∨ buf.get pos ≠ berOctetStr then none
      else
        let (dnLen, pos) := berReadLength buf bufLen (pos + 1)
        let pos := pos + dnLen
        if entryEnd ≤ pos ∨ buf.get pos ≠ berSequence then none
        else
          let (attrsLen, pos) := berReadLength buf bufLen (pos + 1)
          let attrsEnd := min (pos + attrsLen) bufLen
          readAttributes buf bufLen wantAttr attrsEnd (attrsEnd - pos) pos none

/-- The tag behind the number of a message. -/
def hasTag (buf : Region) (bufLen : Nat) (tag : UInt8) : Bool :=
  if buf.get 0 = berSequence then
    let (_, pos) := berReadLength buf bufLen 1
    let (_, pos) := berReadInt buf bufLen pos
    decide (pos < bufLen) && buf.get pos == tag
  else false

/-! ## Reading messages -/

variable {σ : Type}

/-- The body of a message behind its header. -/
def recvBody (source : Source σ UInt8) (size : Nat) (header : Bytes) (totalLen : Nat) (state : σ) :
    Option Bytes × σ :=
  if size < totalLen + header.length then (none, state)
  else if totalLen = 0 then (some header, state)
  else
    match source.read state totalLen with
    | (none, state) => (none, state)
    | (some body, state) => (some (header ++ body), state)

/-- `ldap_recv_message` into a buffer of a size. -/
def ldapRecvMessage (source : Source σ UInt8) (size : Nat) (state : σ) : Option Bytes × σ :=
  match source.read state 2 with
  | (none, state) => (none, state)
  | (some header, state) =>
    let second := header.getD 1 0
    if second < 0x80 then recvBody source size header second.toNat state
    else
      let hdrExtra := (second &&& 0x7F).toNat
      if 3 < hdrExtra ∨ hdrExtra = 0 then (none, state)
      else
        match source.read state hdrExtra with
        | (none, state) => (none, state)
        | (some field, state) => recvBody source size (header ++ field) (bigEndian field) state

/-! ## `cookbook_ldap_bind` -/

/-- `cookbook_ldap_config` -/
structure LdapConfig where
  /-- `url` -/
  url : Option Bytes
  /-- `base_dn` -/
  baseDn : Option Bytes
  /-- `user_attr` -/
  userAttr : Option Bytes
  /-- `group_attr` -/
  groupAttr : Option Bytes
  /-- `group_base` -/
  groupBase : Option Bytes

/-- What `cookbook_ldap_bind` leaves. -/
structure LdapResult where
  /-- What it returns. -/
  rc : Int
  /-- `groups_out` -/
  groups : Option Bytes
  /-- What it has sent. -/
  sent : List Bytes
  deriving DecidableEq

/-- The groups in the first message behind a search request; `beyond` is what the buffer holds behind
the message. -/
def entryGroups (beyond : Nat → UInt8) (groupAttr message : Bytes) : Option Bytes :=
  if hasTag ⟨message, beyond⟩ message.length ldapSearchEntry then
    parseSearchEntryAttr ⟨message, beyond⟩ message.length groupAttr
  else none

/-- Read messages until the search is done or a message fails: none when the rounds are used up. -/
def drainSearch (source : Source σ UInt8) (beyond : Nat → UInt8) :
    Nat → Option Bytes → σ → Option Unit
  | _, none, _ => some ()
  | 0, some _, _ => none
  | rounds + 1, some message, state =>
    if hasTag ⟨message, beyond⟩ message.length ldapSearchDone then some ()
    else
      let next := ldapRecvMessage source 8192 state
      drainSearch source beyond rounds next.1 next.2

/-- The search for groups behind its request. -/
def ldapGroups (source : Source σ UInt8) (beyond : Nat → UInt8) (rounds : Nat) (groupAttr : Bytes)
    (state : σ) : Option (Option Bytes) :=
  let first := ldapRecvMessage source 8192 state
  (drainSearch source beyond rounds first.1 first.2).map fun _ =>
    first.1.bind (entryGroups beyond groupAttr)

/-- `user_attr` or its default. -/
def LdapConfig.attr (cfg : LdapConfig) : Bytes := cfg.userAttr.getD (ascii "uid")

/-- The bind request for a user. -/
def LdapConfig.bindRequest (cfg : LdapConfig) (subject password : Bytes) : Option Bytes :=
  buildBindRequest 2048 1
    (snprintf 512 (cfg.attr ++ ascii "=" ++ subject ++ ascii "," ++ cfg.baseDn.getD [])) password

/-- The search request for the groups of a user. -/
def LdapConfig.searchRequest (cfg : LdapConfig) (subject groupAttr : Bytes) :
    Outcome (Option Bytes) :=
  buildSearchRequest 2048 2 ((cfg.groupBase.or cfg.baseDn).getD []) cfg.attr subject groupAttr

/-- The part of `cookbook_ldap_bind` behind a successful bind. -/
def ldapSearch (source : Source σ UInt8) (beyond : Nat → UInt8) (rounds : Nat) (cfg : LdapConfig)
    (subject : Bytes) (wantsGroups : Bool) (sent : List Bytes) (state : σ) :
    Option (Outcome LdapResult) :=
  match if wantsGroups then cfg.groupAttr else none with
  | none => some (.done ⟨0, none, sent⟩)
  | some groupAttr =>
    match cfg.searchRequest subject groupAttr with
    | .overrun => some .overrun
    | .done none => some (.done ⟨0, none, sent⟩)
    | .done (some request) =>
      (ldapGroups source beyond rounds groupAttr state).map fun groups =>
        .done ⟨0, groups, sent ++ [request]⟩

/-- The part of `cookbook_ldap_bind` behind the connection: none when the rounds are used up. -/
def ldapExchange (source : Source σ UInt8) (beyond : Nat → UInt8) (rounds : Nat) (cfg : LdapConfig)
    (subject password : Bytes) (wantsGroups : Bool) (state : σ) : Option (Outcome LdapResult) :=
  match cfg.bindRequest subject password with
  | none => some (.done ⟨-1, none, []⟩)
  | some request =>
    match ldapRecvMessage source 4096 state with
    | (none, _) => some (.done ⟨-1, none, [request]⟩)
    | (some response, state) =>
      if parseBindResponse ⟨response, beyond⟩ response.length ≠ 0 then
        some (.done ⟨-1, none, [request]⟩)
      else ldapSearch source beyond rounds cfg subject wantsGroups [request] state

/-- `cookbook_sock_recv` on the segments that arrive. -/
def sockSource : Source (List Bytes) UInt8 := joined

/-- `cookbook_tls_sock_recv`, where anything but the whole length is a failure. -/
def tlsSource {Cert RsaKey : Type} (crypto : Crypto Cert RsaKey) (suite : Nat) :
    Source Reader UInt8 where
  read reader count :=
    match cookbookTlsRecv crypto suite reader count with
    | (.bytes chunk, reader) => (if chunk.length = count then some chunk else none, reader)
    | (_, reader) => (none, reader)

/-- Where a URL leads: with TLS or without, host and port. -/
def ldapTarget (url : Bytes) : Bool × Bytes × Int :=
  let scheme : Bool × Bytes × Int :=
    if (ascii "ldaps://").isPrefixOf url then (true, url.drop 8, 636)
    else if (ascii "ldap://").isPrefixOf url then (false, url.drop 7, 389)
    else (false, url, 389)
  let hostBuf := snprintf 256 scheme.2.1
  let host := hostBuf.takeWhile (· != colon)
  let port :=
    match strchr colon hostBuf with
    | some port => atoi (port.drop 1)
    | none => scheme.2.2
  (scheme.1, if host.getLast? = some slash then host.dropLast else host, port)

/-- The servers that a client reaches: what they send on a connection to a host and a port, in
segments or behind a TLS handshake. -/
structure LdapNet where
  /-- `cookbook_sock_connect` -/
  plain : Bytes → Int → Option (List Bytes)
  /-- `cookbook_sock_connect_tls` -/
  tls : Bytes → Int → Option Reader

/-- `cookbook_ldap_bind` -/
def cookbookLdapBind {Cert RsaKey : Type} (crypto : Crypto Cert RsaKey) (suite : Nat)
    (net : LdapNet) (beyond : Nat → UInt8) (rounds : Nat) (cfg : LdapConfig)
    (subject password : Bytes) (wantsGroups : Bool) : Option (Outcome LdapResult) :=
  match cfg.url with
  | none => some (.done ⟨-1, none, []⟩)
  | some url =>
    let (useTls, host, port) := ldapTarget url
    if useTls then
      match net.tls host port with
      | none => some (.done ⟨-1, none, []⟩)
      | some reader =>
        ldapExchange (tlsSource crypto suite) beyond rounds cfg subject password wantsGroups reader
    else
      match net.plain host port with
      | none => some (.done ⟨-1, none, []⟩)
      | some segments =>
        ldapExchange sockSource beyond rounds cfg subject password wantsGroups segments

end Cookbook.Ldap
