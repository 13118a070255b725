import Scaler.Collections.Numeral

/-! `Address`: the parsers of the five schemes and `toString`. The address part of `uv_ip4_addr` and
`uv_ip6_addr` is a parameter, the port goes through `htons`. -/

namespace Scaler.Ymq

open Collections

inductive AddressErrorCode where
  | invalidAddressFormat
  | invalidPortFormat
  deriving DecidableEq, Repr

structure AddressError where
  code : AddressErrorCode
  message : String
  deriving DecidableEq, Repr

/-- libuv on the text of an IP address, up to its terminating zero. -/
structure IpParser (Ip : Type) where
  ip4 : List Char → Option Ip
  ip6 : List Char → Option Ip
  ipName : Ip → Option (List Char)

structure SocketAddress (Ip : Type) where
  ip : Ip
  port : UInt16
  deriving DecidableEq, Repr

structure WebSocketAddress (Ip : Type) where
  tcpAddress : SocketAddress Ip
  host : List Char
  port : UInt16
  path : List Char
  deriving DecidableEq, Repr

inductive AddressValue (Ip : Type) where
  | tcp (address : SocketAddress Ip)
  | ipc (path : List Char)
  | webSocket (address : WebSocketAddress Ip)
  deriving DecidableEq, Repr

structure Address (Ip TLSConfig : Type) where
  value : AddressValue Ip
  secure : Bool
  tlsConfig : Option TLSConfig
  deriving DecidableEq, Repr

/-- `c_str()` as a C function reads it. -/
def cString (text : List Char) : List Char := text.takeWhile (· ≠ '\x00')

section

variable {Ip TLSConfig : Type} (uv : IpParser Ip)

/-- An `int` becomes a port modulo 2 ^ 16. -/
def SocketAddress.ipv4 (ip : List Char) (port : Int) : Option (SocketAddress Ip) :=
  (uv.ip4 (cString ip)).map fun ip => ⟨ip, UInt16.ofInt port⟩

def SocketAddress.ipv6 (ip : List Char) (port : Int) : Option (SocketAddress Ip) :=
  (uv.ip6 (cString ip)).map fun ip => ⟨ip, UInt16.ofInt port⟩

/-- IPv4 is tried first. -/
def SocketAddress.ofHost (host : List Char) (port : Int) : Option (SocketAddress Ip) :=
  match SocketAddress.ipv4 uv host port with
  | some address => some address
  | none => SocketAddress.ipv6 uv host port

def SocketAddress.toString (address : SocketAddress Ip) : Option (List Char) :=
  (uv.ipName address.ip).map fun name => name ++ ':' :: Nat.toDigits 10 address.port.toNat

/-- An address `ip:port`. -/
def fromTCPString (addrPart : List Char) : Except AddressError (AddressValue Ip) :=
  match splitLast ':' addrPart with
  | none => .error ⟨.invalidAddressFormat, "Missing port separator"⟩
  | some (ip, portStr) =>
    match stoi portStr with
    | none => .error ⟨.invalidPortFormat, "Invalid port number"⟩
    | some port =>
      match SocketAddress.ofHost uv ip port with
      | some address => .ok (.tcp address)
      | none => .error ⟨.invalidAddressFormat, "Failed to parse IP address"⟩

def fromIPCString (addrPart : List Char) : Except AddressError (AddressValue Ip) := .ok (.ipc addrPart)

/-- An address `host:port/path`. -/
def fromWSString (addrPart : List Char) : Except AddressError (AddressValue Ip) :=
  let authority := addrPart.takeWhile (· ≠ '/')
  let path := if '/' ∈ addrPart then addrPart.dropWhile (· ≠ '/') else ['/']
  match splitLast ':' authority with
  | none => .error ⟨.invalidAddressFormat, "Missing port in WebSocket address"⟩
  | some (host, portStr) =>
    match stoi portStr with
    | none => .error ⟨.invalidPortFormat, "Invalid port in WebSocket address"⟩
    | some port =>
      if port < 0 ∨ 65535 < port then .error ⟨.invalidPortFormat, "WebSocket port out of range"⟩
      else
        match SocketAddress.ofHost uv host port with
        | some address => .ok (.webSocket ⟨address, host, UInt16.ofInt port, path⟩)
        | none => .error ⟨.invalidAddressFormat, "Failed to parse WebSocket host as IP address"⟩

end

inductive Scheme where
  | tcp
  | tls
  | ipc
  | ws
  | wss
  deriving DecidableEq, Repr

namespace Scheme

/-- What an address of the scheme starts with. -/
def head : Scheme → List Char
  | .tcp => ['t', 'c', 'p', ':', '/', '/']
  | .tls => ['t', 'l', 's', ':', '/', '/']
  | .ipc => ['i', 'p', 'c', ':', '/', '/']
  | .ws => ['w', 's', ':', '/', '/']
  | .wss => ['w', 's', 's', ':', '/', '/']

def secure : Scheme → Bool
  | .tls | .wss => true
  | .tcp | .ipc | .ws => false

def parser {Ip : Type} (uv : IpParser Ip) : Scheme → List Char → Except AddressError (AddressValue Ip)
  | .tcp | .tls => fromTCPString uv
  | .ipc => fromIPCString
  | .ws | .wss => fromWSString uv

/-- The order of `prefixParsers`. -/
def all : List Scheme := [.tcp, .tls, .ipc, .ws, .wss]

end Scheme

namespace Address

variable {Ip TLSConfig : Type} (uv : IpParser Ip)

def fromString (address : List Char) (tlsConfig : Option TLSConfig) : Except AddressError (Address Ip TLSConfig) :=
  match Scheme.all.find? fun scheme => scheme.head.isPrefixOf address with
  | none => .error ⟨.invalidAddressFormat, "Address must start with 'tcp://', 'tls://', 'ipc://', 'ws://', or 'wss://'"⟩
  | some scheme =>
    match scheme.parser uv (address.drop scheme.head.length) with
    | .error error => .error error
    | .ok value => .ok ⟨value, scheme.secure, tlsConfig⟩

def toString (a : Address Ip TLSConfig) : Except AddressError (List Char) :=
  match a.value with
  | .tcp address =>
    match address.toString uv with
    | none => .error ⟨.invalidAddressFormat, "Failed to convert TCP address to string"⟩
    | some text => .ok ((if a.secure then Scheme.tls else Scheme.tcp).head ++ text)
  | .ipc path => .ok (Scheme.ipc.head ++ path)
  | .webSocket ws =>
    .ok ((if a.secure then Scheme.wss else Scheme.ws).head ++ ws.host ++ ':' :: Nat.toDigits 10 ws.port.toNat ++ ws.path)

end Address

/-- The port that the address goes to. -/
def AddressValue.port {Ip : Type} : AddressValue Ip → Option UInt16
  | .tcp address => some address.port
  | .ipc _ => none
  | .webSocket ws => some ws.port

namespace Scheme

/-- The texts of the host and of the port. -/
def endpoint : Scheme → List Char → Option (List Char × List Char)
  | .tcp, rest | .tls, rest => splitLast ':' rest
  | .ipc, _ => none
  | .ws, rest | .wss, rest => splitLast ':' (rest.takeWhile (· ≠ '/'))

/-- Only one of the two parsers looks at the range of the port. -/
def checksRange : Scheme → Bool
  | .ws | .wss => true
  | .tcp | .tls | .ipc => false

end Scheme

/-- A complete decimal number that is a port. -/
def IsPort (text : List Char) : Prop := IsNumeral text ∧ numeralValue text ≤ 65535

/-- The number that the text of the port denotes. -/
def Denotes (address : List Char) (n : Nat) : Prop :=
  ∃ (scheme : Scheme) (rest host part : List Char), address = scheme.head ++ rest ∧
    scheme.endpoint rest = some (host, part) ∧ numeralValue part = n

section

variable {Ip TLSConfig : Type} (uv : IpParser Ip)

/-- The text is an IP address. -/
def IpParser.Accepts (host : List Char) : Prop := uv.ip4 (cString host) ≠ none ∨ uv.ip6 (cString host) ≠ none

variable (TLSConfig) in
/-- An accepted address has a port, which is the number that its text denotes, and what is printed
of an address that is not a TCP address is parsed to the same address. -/
structure ParsedExactly (address : List Char) : Prop where
  port : ∀ (scheme : Scheme) rest, scheme ≠ .ipc → address = scheme.head ++ rest →
    ∀ (tlsConfig : Option TLSConfig) a, Address.fromString uv address tlsConfig = .ok a →
      ∃ host part, scheme.endpoint rest = some (host, part) ∧ IsPort part ∧
        a.value.port.map UInt16.toNat = some (numeralValue part)
  roundTrip : ∀ (tlsConfig : Option TLSConfig) a, Address.fromString uv address tlsConfig = .ok a →
    (∀ tcp, a.value ≠ .tcp tcp) → ∃ text, a.toString uv = .ok text ∧ Address.fromString uv text tlsConfig = .ok a

/-- The host is an IP address, and the text of the port is none but starts, behind white space and a
sign, with digits that make an `int`, in the range of the ports where this is checked. -/
def LenientPort (address : List Char) : Prop :=
  ∃ (scheme : Scheme) (rest host part : List Char) (n : Int), address = scheme.head ++ rest ∧
    scheme.endpoint rest = some (host, part) ∧ uv.Accepts host ∧ stoi part = some n ∧
    (scheme.checksRange = true → 0 ≤ n ∧ n ≤ 65535) ∧ ¬IsPort part

end

section

variable {Ip TLSConfig : Type} {uv : IpParser Ip}

theorem find?_head (scheme : Scheme) (rest : List Char) :
    Scheme.all.find? (fun s => s.head.isPrefixOf (scheme.head ++ rest)) = some scheme := by
  cases scheme <;> rfl

theorem Address.fromString_head (scheme : Scheme) (rest : List Char) (tlsConfig : Option TLSConfig) :
    Address.fromString uv (scheme.head ++ rest) tlsConfig =
      match scheme.parser uv rest with
      | .error error => .error error
      | .ok value => .ok ⟨value, scheme.secure, tlsConfig⟩ := by
  rw [Address.fromString, find?_head]
  dsimp only
  rw [List.drop_left]

theorem Address.exists_scheme {address : List Char} {tlsConfig : Option TLSConfig} {a : Address Ip TLSConfig}
    (h : Address.fromString uv address tlsConfig = .ok a) : ∃ (scheme : Scheme) (rest : List Char),
      address = scheme.head ++ rest := by
  unfold Address.fromString at h
  split at h
  · cases h
  · next scheme hfind =>
    have hhead := List.find?_some hfind
    obtain ⟨rest, hrest⟩ := List.isPrefixOf_iff_prefix.mp hhead
    exact ⟨scheme, rest, hrest.symm⟩

theorem SocketAddress.ofHost_eq {host : List Char} {port : Int} {address : SocketAddress Ip}
    (h : SocketAddress.ofHost uv host port = some address) : uv.Accepts host ∧ address.port = UInt16.ofInt port := by
  unfold SocketAddress.ofHost SocketAddress.ipv4 SocketAddress.ipv6 at h
  unfold IpParser.Accepts
  cases h4 : uv.ip4 (cString host) with
  | some ip =>
    rw [h4] at h
    obtain rfl := Option.some.inj h
    exact ⟨.inl (Option.some_ne_none ip), rfl⟩
  | none =>
    rw [h4] at h
    obtain ⟨ip, h6, rfl⟩ := Option.map_eq_some_iff.mp h
    refine ⟨.inr ?_, rfl⟩
    rw [h6]
    exact Option.some_ne_none ip

theorem SocketAddress.exists_ofHost {host : List Char} (h : uv.Accepts host) (port : Int) :
    ∃ address, SocketAddress.ofHost uv host port = some address := by
  unfold SocketAddress.ofHost SocketAddress.ipv4 SocketAddress.ipv6
  cases h4 : uv.ip4 (cString host) with
  | some ip => exact ⟨_, rfl⟩
  | none =>
    obtain ⟨ip, h6⟩ := Option.ne_none_iff_exists'.mp (h.resolve_left fun hne => hne h4)
    rw [h6]
    exact ⟨_, rfl⟩

theorem fromTCPString_ok_iff {addrPart : List Char} {value : AddressValue Ip} :
    fromTCPString uv addrPart = .ok value ↔ ∃ host part n address, splitLast ':' addrPart = some (host, part) ∧
      stoi part = some n ∧ SocketAddress.ofHost uv host n = some address ∧ value = .tcp address := by
  unfold fromTCPString
  constructor
  · intro h
    split at h
    · cases h
    · next host part hsplit =>
      split at h
      · cases h
      · next n hport =>
        split at h
        · next address haddress =>
          obtain rfl := Except.ok.inj h
          exact ⟨host, part, n, address, hsplit, hport, haddress, rfl⟩
        · cases h
  · rintro ⟨host, part, n, address, hsplit, hport, haddress, rfl⟩
    simp only [hsplit, hport, haddress]

/-- The path of a WebSocket address. -/
def webSocketPath (addrPart : List Char) : List Char :=
  if '/' ∈ addrPart then addrPart.dropWhile (· ≠ '/') else ['/']

theorem fromWSString_ok_iff {addrPart : List Char} {value : AddressValue Ip} :
    fromWSString uv addrPart = .ok value ↔ ∃ host part n address,
      splitLast ':' (addrPart.takeWhile (· ≠ '/')) = some (host, part) ∧ stoi part = some n ∧ (0 ≤ n ∧ n ≤ 65535) ∧
      SocketAddress.ofHost uv host n = some address ∧
      value = .webSocket ⟨address, host, UInt16.ofInt n, webSocketPath addrPart⟩ := by
  unfold fromWSString
  dsimp only
  constructor
  · intro h
    split at h
    · cases h
    · next host part hsplit =>
      split at h
      · cases h
      · next n hport =>
        split at h
        · cases h
        · next hrange =>
          split at h
          · next address haddress =>
            obtain rfl := Except.ok.inj h
            exact ⟨host, part, n, address, hsplit, hport, by omega, haddress, rfl⟩
          · cases h
  · rintro ⟨host, part, n, address, hsplit, hport, hrange, haddress, rfl⟩
    have hin : ¬(n < 0 ∨ 65535 < n) := by omega
    simp only [hsplit, hport, if_neg hin, haddress, webSocketPath]

/-- What a parser that looks for a port accepts. -/
structure Scheme.Accepts (uv : IpParser Ip) (scheme : Scheme) (rest host part : List Char) (n : Int) : Prop where
  endpoint : scheme.endpoint rest = some (host, part)
  host : uv.Accepts host
  port : stoi part = some n
  range : scheme.checksRange = true → 0 ≤ n ∧ n ≤ 65535

section

variable {scheme : Scheme} {rest : List Char} {value : AddressValue Ip}

theorem Scheme.accepts_of_tcp (hrange : scheme.checksRange = false) (hendpoint : scheme.endpoint rest = splitLast ':' rest)
    (h : fromTCPString uv rest = .ok value) :
    ∃ host part n, scheme.Accepts uv rest host part n ∧ value.port = some (UInt16.ofInt n) := by
  obtain ⟨host, part, n, address, hsplit, hport, haddress, rfl⟩ := fromTCPString_ok_iff.mp h
  obtain ⟨hhost, hp⟩ := SocketAddress.ofHost_eq haddress
  exact ⟨host, part, n, ⟨hendpoint.trans hsplit, hhost, hport, by simp [hrange]⟩, congrArg some hp⟩

theorem Scheme.accepts_of_ws (hendpoint : scheme.endpoint rest = splitLast ':' (rest.takeWhile (· ≠ '/')))
    (h : fromWSString uv rest = .ok value) :
    ∃ host part n, scheme.Accepts uv rest host part n ∧ value.port = some (UInt16.ofInt n) := by
  obtain ⟨host, part, n, address, hsplit, hport, hrange, haddress, rfl⟩ := fromWSString_ok_iff.mp h
  exact ⟨host, part, n, ⟨hendpoint.trans hsplit, (SocketAddress.ofHost_eq haddress).1, hport, fun _ => hrange⟩, rfl⟩

theorem Scheme.accepts_of_parser (hne : scheme ≠ .ipc) (h : scheme.parser uv rest = .ok value) :
    ∃ host part n, scheme.Accepts uv rest host part n ∧ value.port = some (UInt16.ofInt n) := by
  cases scheme with
  | tcp => exact accepts_of_tcp rfl rfl h
  | tls => exact accepts_of_tcp rfl rfl h
  | ipc => exact absurd rfl hne
  | ws => exact accepts_of_ws rfl h
  | wss => exact accepts_of_ws rfl h

end

theorem Scheme.Accepts.exists_parser {scheme : Scheme} {rest host part : List Char} {n : Int}
    (h : scheme.Accepts uv rest host part n) : ∃ value, scheme.parser uv rest = .ok value := by
  obtain ⟨address, haddress⟩ := SocketAddress.exists_ofHost h.host n
  cases scheme with
  | tcp => exact ⟨_, fromTCPString_ok_iff.mpr ⟨host, part, n, address, h.endpoint, h.port, haddress, rfl⟩⟩
  | tls => exact ⟨_, fromTCPString_ok_iff.mpr ⟨host, part, n, address, h.endpoint, h.port, haddress, rfl⟩⟩
  | ipc => cases h.endpoint
  | ws => exact ⟨_, fromWSString_ok_iff.mpr ⟨host, part, n, address, h.endpoint, h.port, h.range rfl, haddress, rfl⟩⟩
  | wss => exact ⟨_, fromWSString_ok_iff.mpr ⟨host, part, n, address, h.endpoint, h.port, h.range rfl, haddress, rfl⟩⟩

/-- A port that is a plain number is kept as it is. -/
theorem toNat_ofInt_of_isPort {part : List Char} {n : Int} (h : IsPort part) (hport : stoi part = some n) :
    (UInt16.ofInt n).toNat = numeralValue part := by
  have hle := h.2
  rw [stoi_of_isNumeral h.1 (by omega)] at hport
  obtain rfl := Option.some.inj hport
  have hmod : ((numeralValue part : Int) % 2 ^ 16).toNat = numeralValue part := by omega
  rw [UInt16.ofInt, hmod, UInt16.toNat_ofNat']
  exact Nat.mod_eq_of_lt (by omega)

theorem not_mem_of_isNumeral {text : List Char} (h : IsNumeral text) {c : Char} (hc : c.isDigit = false) : c ∉ text := by
  intro hmem
  rw [h.2 c hmem] at hc
  cases hc

theorem webSocketPath_eq (addrPart : List Char) : ∃ path, webSocketPath addrPart = '/' :: path := by
  unfold webSocketPath
  split
  · next hmem =>
    cases hdrop : addrPart.dropWhile (· ≠ '/') with
    | nil =>
      rw [List.dropWhile_eq_nil_iff] at hdrop
      exact absurd (hdrop '/' hmem) (by decide)
    | cons c path =>
      have hc := List.head?_dropWhile_not (· ≠ '/') addrPart
      rw [hdrop] at hc
      have heq : c = '/' := by simpa using hc
      exact ⟨path, by rw [heq]⟩
  · exact ⟨[], rfl⟩

/-- What is printed of a WebSocket address is parsed to the same address. -/
theorem fromWSString_printed {addrPart : List Char} {value : AddressValue Ip} (h : fromWSString uv addrPart = .ok value) :
    ∃ ws, value = .webSocket ws ∧
      fromWSString uv (ws.host ++ ':' :: Nat.toDigits 10 ws.port.toNat ++ ws.path) = .ok value := by
  obtain ⟨host, part, n, address, hsplit, hport, hrange, haddress, rfl⟩ := fromWSString_ok_iff.mp h
  refine ⟨_, rfl, fromWSString_ok_iff.mpr ?_⟩
  dsimp only
  obtain ⟨path, hpath⟩ := webSocketPath_eq addrPart
  have hnat : (UInt16.ofInt n).toNat = n.toNat := by
    have hmod : (n % 2 ^ 16).toNat = n.toNat := by omega
    rw [UInt16.ofInt, hmod, UInt16.toNat_ofNat']
    exact Nat.mod_eq_of_lt (by omega)
  have hnumeral := isNumeral_toDigits n.toNat
  have hvalue : numeralValue (Nat.toDigits 10 n.toNat) = n.toNat := Nat.ofDigitChars_ten_toDigits
  have hauthority : ∀ c ∈ host ++ ':' :: Nat.toDigits 10 n.toNat, decide (c ≠ '/') = true := by
    intro c hc
    rcases List.mem_append.mp hc with hhost | hrest
    · -- the host stands before the first slash
      have hmem : c ∈ addrPart.takeWhile (· ≠ '/') := by
        rw [(eq_append_of_splitLast hsplit).1]
        exact List.mem_append_left _ hhost
      have htrue := List.mem_takeWhile_imp hmem
      exact htrue
    · rcases List.mem_cons.mp hrest with rfl | hdigit
      · decide
      · refine decide_eq_true fun heq => not_mem_of_isNumeral hnumeral ?_ (heq ▸ hdigit)
        decide
  have htake : (host ++ ':' :: Nat.toDigits 10 n.toNat ++ '/' :: path).takeWhile (· ≠ '/') =
      host ++ ':' :: Nat.toDigits 10 n.toNat := by
    rw [List.takeWhile_append_of_pos hauthority]
    simp
  have hdrop : webSocketPath (host ++ ':' :: Nat.toDigits 10 n.toNat ++ '/' :: path) = '/' :: path := by
    rw [webSocketPath, if_pos (by simp), List.dropWhile_append_of_pos hauthority]
    simp
  have hint : ((n.toNat : Nat) : Int) = n := by omega
  rw [hnat, hpath, htake, hdrop]
  refine ⟨host, _, n, address, splitLast_append (not_mem_of_isNumeral hnumeral (by decide)), ?_, hrange, haddress, rfl⟩
  rw [stoi_of_isNumeral hnumeral (by rw [hvalue]; omega), hvalue, hint]

theorem Address.printed_eq {address : List Char} {tlsConfig : Option TLSConfig} {a : Address Ip TLSConfig}
    (h : Address.fromString uv address tlsConfig = .ok a) (hne : ∀ tcp, a.value ≠ .tcp tcp) :
    ∃ text, a.toString uv = .ok text ∧ Address.fromString uv text tlsConfig = .ok a := by
  obtain ⟨scheme, rest, rfl⟩ := Address.exists_scheme h
  rw [Address.fromString_head] at h
  cases hparse : scheme.parser uv rest with
  | error error =>
    rw [hparse] at h
    cases h
  | ok value =>
    rw [hparse] at h
    obtain rfl := Except.ok.inj h
    cases scheme with
    | tcp =>
      obtain ⟨_, _, _, address, _, _, _, rfl⟩ := fromTCPString_ok_iff.mp hparse
      exact absurd rfl (hne address)
    | tls =>
      obtain ⟨_, _, _, address, _, _, _, rfl⟩ := fromTCPString_ok_iff.mp hparse
      exact absurd rfl (hne address)
    | ipc =>
      obtain rfl := Except.ok.inj hparse
      exact ⟨_, rfl, Address.fromString_head .ipc rest tlsConfig⟩
    | ws =>
      obtain ⟨ws, rfl, hprinted⟩ := fromWSString_printed hparse
      refine ⟨Scheme.ws.head ++ (ws.host ++ ':' :: Nat.toDigits 10 ws.port.toNat ++ ws.path), ?_, ?_⟩
      · simp [Address.toString, Scheme.secure]
      · rw [Address.fromString_head, Scheme.parser, hprinted]
    | wss =>
      obtain ⟨ws, rfl, hprinted⟩ := fromWSString_printed hparse
      refine ⟨Scheme.wss.head ++ (ws.host ++ ':' :: Nat.toDigits 10 ws.port.toNat ++ ws.path), ?_, ?_⟩
      · simp [Address.toString, Scheme.secure]
      · rw [Address.fromString_head, Scheme.parser, hprinted]

/-- A port that the parsers do not take for another number is parsed exactly. -/
theorem parsedExactly_of_not_lenient {address : List Char} (h : ¬LenientPort uv address) :
    ParsedExactly TLSConfig uv address where
  port := by
    rintro scheme rest hne rfl tlsConfig a hparsed
    rw [Address.fromString_head] at hparsed
    cases hparse : scheme.parser uv rest with
    | error error =>
      rw [hparse] at hparsed
      cases hparsed
    | ok value =>
      rw [hparse] at hparsed
      obtain rfl := Except.ok.inj hparsed
      obtain ⟨host, part, n, haccepts, hvalue⟩ := Scheme.accepts_of_parser hne hparse
      have hport : IsPort part := by
        by_contra hno
        exact h ⟨scheme, rest, host, part, n, rfl, haccepts.endpoint, haccepts.host, haccepts.port, haccepts.range, hno⟩
      refine ⟨host, part, haccepts.endpoint, hport, ?_⟩
      rw [hvalue, Option.map_some, toNat_ofInt_of_isPort hport haccepts.port]
  roundTrip _ _ hparsed hne := Address.printed_eq hparsed hne

theorem LenientPort.not_parsedExactly {address : List Char} (h : LenientPort uv address) :
    ¬ParsedExactly TLSConfig uv address := by
  obtain ⟨scheme, rest, host, part, n, rfl, hendpoint, hhost, hport, hrange, hno⟩ := h
  intro hexact
  obtain ⟨value, hvalue⟩ := Scheme.Accepts.exists_parser ⟨hendpoint, hhost, hport, hrange⟩
  have hne : scheme ≠ .ipc := by
    rintro rfl
    cases hendpoint
  have hparsed : Address.fromString uv (scheme.head ++ rest) (none : Option TLSConfig) =
      .ok ⟨value, scheme.secure, none⟩ := by
    rw [Address.fromString_head, hvalue]
  obtain ⟨host', part', hendpoint', hnumber, -⟩ := hexact.port scheme rest hne rfl none _ hparsed
  obtain ⟨rfl, rfl⟩ := Prod.mk.inj (Option.some.inj (hendpoint.symm.trans hendpoint'))
  exact hno hnumber

theorem ParsedExactly.port_eq {address : List Char} (h : ParsedExactly TLSConfig uv address) {n : Nat}
    (hn : Denotes address n) {tlsConfig : Option TLSConfig} {a : Address Ip TLSConfig}
    (ha : Address.fromString uv address tlsConfig = .ok a) : a.value.port.map UInt16.toNat = some n := by
  obtain ⟨scheme, rest, host, part, haddress, hendpoint, rfl⟩ := hn
  have hne : scheme ≠ .ipc := by
    rintro rfl
    cases hendpoint
  obtain ⟨host', part', hendpoint', -, hport⟩ := h.port scheme rest hne haddress tlsConfig a ha
  obtain ⟨rfl, rfl⟩ := Prod.mk.inj (Option.some.inj (hendpoint.symm.trans hendpoint'))
  exact hport

variable (TLSConfig uv) in
/-- Addresses are parsed exactly, unless the port is taken for a number that it is not; and two
addresses that are parsed exactly to the same port denote the same number. -/
theorem parsedExactly_iff (address other : List Char) :
    (ParsedExactly TLSConfig uv address ↔ ¬LenientPort uv address) ∧
      (¬LenientPort uv address → ¬LenientPort uv other →
        ∀ (tlsConfig : Option TLSConfig) a b n m, Address.fromString uv address tlsConfig = .ok a →
          Address.fromString uv other tlsConfig = .ok b → a.value.port = b.value.port →
          Denotes address n → Denotes other m → n = m) := by
  refine ⟨⟨fun hexact hlenient => hlenient.not_parsedExactly hexact, parsedExactly_of_not_lenient⟩, ?_⟩
  intro haddress hother tlsConfig a b n m ha hb hport hn hm
  have han := (parsedExactly_of_not_lenient haddress).port_eq hn ha
  have hbm := (parsedExactly_of_not_lenient hother).port_eq hm hb
  rw [hport, hbm] at han
  exact (Option.some.inj han).symm

end

/-- A number of a dotted address: no leading zero and at most 255. -/
def isOctet (text : List Char) : Bool :=
  IsNumeral text ∧ (text.length = 1 ∨ text.head? ≠ some '0') ∧ numeralValue text ≤ 255

/-- Dotted decimal addresses, and no others. -/
def dottedParser : IpParser (List (List Char)) where
  ip4 text :=
    let octets := text.splitOn '.'
    if octets.length = 4 ∧ octets.all isOctet then some octets else none
  ip6 _ := none
  ipName octets := some (List.intercalate ['.'] octets)

def letteredPort : List Char := "tcp://127.0.0.1:80abc".toList

/-- Letters behind the port are overlooked. -/
theorem lettered_port_accepted :
    (Address.fromString dottedParser letteredPort (none : Option Unit)).toOption.map (fun a => a.value.port) =
      some (some 80) ∧ ¬ParsedExactly Unit dottedParser letteredPort := by
  refine ⟨by decide +kernel, fun hexact => ?_⟩
  have hparsed : ∃ a, Address.fromString dottedParser letteredPort (none : Option Unit) = .ok a := ⟨_, rfl⟩
  obtain ⟨a, ha⟩ := hparsed
  obtain ⟨host, part, hendpoint, hport, -⟩ := hexact.port .tcp (letteredPort.drop 6) (by decide) rfl none a ha
  have hpart : Scheme.tcp.endpoint (letteredPort.drop 6) = some ("127.0.0.1".toList, "80abc".toList) := by decide +kernel
  obtain ⟨-, rfl⟩ := Prod.mk.inj (Option.some.inj (hpart.symm.trans hendpoint))
  exact absurd hport.1 (by decide +kernel)

end Scaler.Ymq
