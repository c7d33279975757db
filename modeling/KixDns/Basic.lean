import Mathlib.Data.List.Basic

/-!
# DNS atoms and the library collaborators of the engine

The engine (`src/engine.rs`, `src/matcher.rs`, `src/advanced_rule.rs`) works over a few
types of `hickory-proto` and of the standard library, and calls a handful of library
functions that are not part of the repository: regex matching, IP-address parsing, name
parsing, and the full DNS message decoder and encoder.  The types are modelled here by
the fields the engine reads; the functions are gathered in `Lib`, so that every definition
of the engine takes the library as a parameter and every theorem holds for any library.

## Modelling choices

* Byte strings (`&[u8]`, `Bytes`, `Vec<u8>`) are `List UInt8`.
* `RecordType`, `DNSClass` and `ResponseCode` are their 16-bit wire codes, which is what
  `From<u16>` and the equality the engine uses on them see.
* A `&str` is the list of its characters.  `str::ends_with` on a `&str` pattern is a byte
  suffix test, which on UTF-8 text is the same as a character suffix test.
-/

namespace KixDns

/-- A byte string. -/
abbrev Bytes := List UInt8

/-- A DNS record type, by its wire code (`RecordType::from(u16)`). -/
structure RecordType where
  code : UInt16
deriving DecidableEq, Repr

namespace RecordType
def A : RecordType := ⟨1⟩
def AAAA : RecordType := ⟨28⟩
end RecordType

/-- A DNS class, by its wire code (`DNSClass::from(u16)`). -/
structure DNSClass where
  code : UInt16
deriving DecidableEq, Repr

namespace DNSClass
def IN : DNSClass := ⟨1⟩
def CH : DNSClass := ⟨3⟩
def HS : DNSClass := ⟨4⟩
end DNSClass

/-- A response code, by its numeric value. -/
structure ResponseCode where
  code : UInt16
deriving DecidableEq, Repr

namespace ResponseCode
def NoError : ResponseCode := ⟨0⟩
def FormErr : ResponseCode := ⟨1⟩
def ServFail : ResponseCode := ⟨2⟩
def NXDomain : ResponseCode := ⟨3⟩
def NotImp : ResponseCode := ⟨4⟩
def Refused : ResponseCode := ⟨5⟩
end ResponseCode

/-- An IP address (`std::net::IpAddr`). -/
inductive IpAddr where
  | v4 (addr : BitVec 32)
  | v6 (addr : BitVec 128)
deriving DecidableEq, Repr

/-- A network in CIDR notation (`ipnet::IpNet`): an address and a prefix length. -/
inductive IpNet where
  | v4 (addr : BitVec 32) (prefixLen : Nat)
  | v6 (addr : BitVec 128) (prefixLen : Nat)
deriving DecidableEq, Repr

/-- `IpNet::contains`: same family, and the first `prefixLen` bits agree. -/
def IpNet.contains : IpNet → IpAddr → Bool
  | .v4 net len, .v4 ip => net >>> (32 - len) == ip >>> (32 - len)
  | .v6 net len, .v6 ip => net >>> (128 - len) == ip >>> (128 - len)
  | _, _ => false

/-- A domain name of `hickory-proto` (`Name`): its labels and whether it is absolute. -/
structure Name where
  labels : List Bytes
  fqdn : Bool
deriving DecidableEq, Repr

/-- The record data the engine builds or inspects. -/
inductive RData where
  | a (addr : BitVec 32)
  | aaaa (addr : BitVec 128)
  | other (rtype : RecordType) (data : Bytes)
deriving DecidableEq, Repr

/-- A resource record (`Record`). -/
structure Record where
  name : Name
  ttl : UInt32
  rdata : RData
deriving DecidableEq, Repr

/-- `Record::record_type`. -/
def Record.recordType (r : Record) : RecordType :=
  match r.rdata with
  | .a _ => RecordType.A
  | .aaaa _ => RecordType.AAAA
  | .other t _ => t

/-- A question (`Query`). -/
structure Query where
  name : Name
  queryType : RecordType
  queryClass : DNSClass
deriving DecidableEq, Repr

/-- The fields of a `hickory-proto` `Message` that the engine reads or sets. -/
structure Message where
  id : UInt16
  isResponse : Bool
  opCode : UInt8
  recursionDesired : Bool
  recursionAvailable : Bool
  authoritative : Bool
  responseCode : ResponseCode
  queries : List Query
  answers : List Record
  additionals : List Record
  edns : Bool
deriving DecidableEq, Repr

/-- `Message::new()`: id 0, a query with no sections and no flags. -/
def Message.new : Message where
  id := 0
  isResponse := false
  opCode := 0
  recursionDesired := false
  recursionAvailable := false
  authoritative := false
  responseCode := ResponseCode.NoError
  queries := []
  answers := []
  additionals := []
  edns := false

/-- The library functions the engine calls and the repository does not define. -/
structure Lib where
  /-- `Regex::is_match` of a compiled pattern on a text. -/
  regexIsMatch : String → String → Bool
  /-- `str::parse::<IpAddr>`. -/
  parseIpAddr : String → Option IpAddr
  /-- `str::parse::<SocketAddr>`, keeping the address. -/
  parseSocketAddrIp : String → Option IpAddr
  /-- `Name::from_str`. -/
  nameFromStr : String → Option Name
  /-- `question.name().to_lowercase().to_string()`. -/
  nameToLowerString : Name → String
  /-- `format!("{}", rrty)` for a record type. -/
  recordTypeName : RecordType → String
  /-- `Message::from_bytes`: the full decoder. -/
  messageFromBytes : Bytes → Option Message
  /-- `Message::emit` into a fresh `BinEncoder`: the full encoder. -/
  messageEmit : Message → Option Bytes
  /-- `FxHasher::default()` fed a `&str`, a `String` and a `u16` by `Hash::hash`, then
  `finish`. -/
  fxHash : String → String → UInt16 → UInt64

/-- A library that matches no pattern, parses, decodes and encodes nothing, and hashes
everything to `0`. -/
instance : Inhabited Lib :=
  ⟨⟨fun _ _ ↦ false, fun _ ↦ none, fun _ ↦ none, fun _ ↦ none, fun _ ↦ "", fun _ ↦ "",
    fun _ ↦ none, fun _ ↦ none, fun _ _ _ ↦ 0⟩⟩

/-! ## Text -/

/-- `str::ends_with` with a `&str` pattern. -/
def endsWith (s suffix : String) : Bool :=
  suffix.toList.isSuffixOf s.toList

/-- What follows each `.` of a name, left to right. -/
def afterDots : List Char → List String
  | [] => []
  | c :: rest => if c = '.' then String.mk rest :: afterDots rest else afterDots rest

/-- The names the suffix loops of `RuleIndex::get_candidates` and of `Engine::apply_rules`
look up: `search_name` starts at `qname` and moves past the first `.` until none is
left. -/
def searchNames (qname : String) : List String :=
  qname :: afterDots qname.toList

/-! ## Bytes -/

/-- The big-endian bytes of a 16-bit value (`u16::to_be_bytes`). -/
def be16 (v : UInt16) : Bytes :=
  [UInt8.ofNat (v.toNat / 256), UInt8.ofNat (v.toNat % 256)]

/-- `u16::from_be_bytes([hi, lo])`. -/
def ofBe16 (hi lo : UInt8) : UInt16 :=
  UInt16.ofNat (hi.toNat * 256 + lo.toNat)

/-- Reading back the bytes of a value gives the value. -/
theorem ofBe16_be16 (v : UInt16) :
    ofBe16 (UInt8.ofNat (v.toNat / 256)) (UInt8.ofNat (v.toNat % 256)) = v := by
  have hv : v.toNat < 65536 := v.toNat_lt_size
  have hhi : (UInt8.ofNat (v.toNat / 256)).toNat = v.toNat / 256 :=
    UInt8.toNat_ofNat_of_lt (by show _ < 256; omega)
  have hlo : (UInt8.ofNat (v.toNat % 256)).toNat = v.toNat % 256 :=
    UInt8.toNat_ofNat_of_lt (by show _ < 256; omega)
  apply UInt16.toNat.inj
  rw [ofBe16, hhi, hlo, UInt16.toNat_ofNat_of_lt (by show _ < 65536; omega)]
  omega

/-- Overwrite the first two bytes with a transaction id, as every id rewrite of the engine
does (`resp[0] = id_bytes[0]; resp[1] = id_bytes[1]` under `len >= 2`). -/
def setId (id : UInt16) : Bytes → Bytes
  | _ :: _ :: rest => be16 id ++ rest
  | b => b

/-- The transaction id in the first two bytes, if there are two. -/
def idOf : Bytes → Option UInt16
  | hi :: lo :: _ => some (ofBe16 hi lo)
  | _ => none

/-- After an id rewrite, a message of two bytes or more carries the new id. -/
theorem idOf_setId (id : UInt16) {b : Bytes} (hb : 2 ≤ b.length) : idOf (setId id b) = some id := by
  match b, hb with
  | _ :: _ :: _, _ => exact congrArg some (ofBe16_be16 id)

/-- An id rewrite leaves every byte after the first two alone. -/
@[simp] theorem setId_drop_two (id : UInt16) (b : Bytes) : (setId id b).drop 2 = b.drop 2 := by
  match b with
  | [] | [_] | _ :: _ :: _ => rfl

end KixDns
