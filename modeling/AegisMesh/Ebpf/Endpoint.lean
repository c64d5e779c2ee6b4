import AegisMesh.Ebpf.Event
import AegisMesh.Lib.HostPort

/-!
# Endpoint keys (`agent/ebpf/endpoint.go`)

A key is an IPv4 address, as the kernel keeps it in memory, and a port. The address is
written octet by octet from its lowest byte, and read in the same order.
-/

open Lib

namespace AegisMesh.Ebpf

def formatEndpoint (key : UInt64) : String :=
  if key = 0 then ""
  else
    let port := key.toUInt16
    let ipv4 := (key >>> 16).toUInt32
    let ip := dotted ipv4.toUInt8 (ipv4 >>> 8).toUInt8 (ipv4 >>> 16).toUInt8 (ipv4 >>> 24).toUInt8
    String.ofList (joinHostPort ip (decimal port.toNat))

inductive EndpointError
  | address (addr : String) (err : AddrError)
  | port (portStr : String)
  | portOutOfRange (portStr : String)
  | invalidIP (host : String)
  | ipv4Required (host : String)
deriving DecidableEq, Repr

def parseEndpointKey (parseIPv6 : List Char → Option (List UInt8)) (addr : String) : Except EndpointError UInt64 :=
  if addr = "" then .ok 0
  else
    match splitHostPort addr.toList with
    | .error err => .error (.address addr err)
    | .ok (host, portStr) =>
      match atoi portStr with
      | none => .error (.port (.ofList portStr))
      | some port =>
        if port ≤ 0 ∨ 65535 < port then .error (.portOutOfRange (.ofList portStr))
        else
          match parseIP parseIPv6 host with
          | none => .error (.invalidIP (.ofList host))
          | some ip =>
            match to4 ip with
            | none => .error (.ipv4Required (.ofList host))
            | some ip4 =>
              let ipv4 := (ip4.getD 0 0).toUInt32 ||| (ip4.getD 1 0).toUInt32 <<< 8 ||| (ip4.getD 2 0).toUInt32 <<< 16 |||
                (ip4.getD 3 0).toUInt32 <<< 24
              .ok (packEndpoint ipv4 (.ofNat port.toNat))

/-! ## The fields of a key -/

variable {ipv4 : UInt32} {port : UInt16}

theorem toNat_packEndpoint (hip : ipv4 ≠ 0) (hport : port ≠ 0) :
    (packEndpoint ipv4 port).toNat = port.toNat + ipv4.toNat * 2 ^ 16 := by
  have hlt := ipv4.toNat_lt
  unfold packEndpoint
  rw [if_neg (by simp [hip, hport]), UInt64.toNat_or, Nat.or_comm, ← or_high port.toNat_lt]
  simp only [UInt64.toNat_shiftLeft, UInt32.toNat_toUInt64, UInt16.toNat_toUInt64, Nat.shiftLeft_eq]
  congr 1
  simp
  omega

theorem packEndpoint_ne_zero (hip : ipv4 ≠ 0) (hport : port ≠ 0) : packEndpoint ipv4 port ≠ 0 := by
  have hpos : port.toNat ≠ 0 := fun h => hport (UInt16.toNat_inj.mp h)
  intro h
  have hnat := toNat_packEndpoint hip hport
  rw [h, UInt64.toNat_zero] at hnat
  omega

theorem port_packEndpoint (hip : ipv4 ≠ 0) (hport : port ≠ 0) : (packEndpoint ipv4 port).toUInt16 = port := by
  have hlt := port.toNat_lt
  rw [← UInt16.toNat_inj, UInt64.toNat_toUInt16, toNat_packEndpoint hip hport]
  omega

theorem ipv4_packEndpoint (hip : ipv4 ≠ 0) (hport : port ≠ 0) : (packEndpoint ipv4 port >>> 16).toUInt32 = ipv4 := by
  have hlt := ipv4.toNat_lt
  have hlt' := port.toNat_lt
  rw [← UInt32.toNat_inj, UInt64.toNat_toUInt32, UInt64.toNat_shiftRight, toNat_packEndpoint hip hport,
    Nat.shiftRight_eq_div_pow]
  simp
  omega

theorem ipv4_of_octets (x : UInt32) :
    x.toUInt8.toUInt32 ||| (x >>> 8).toUInt8.toUInt32 <<< 8 ||| (x >>> 16).toUInt8.toUInt32 <<< 16 |||
      (x >>> 24).toUInt8.toUInt32 <<< 24 = x := by
  have hlt := x.toNat_lt
  have h8 : x.toNat % 256 ||| x.toNat / 256 % 256 * 256 = x.toNat % 65536 := by
    apply (or_high (w := 8) (by omega) _).trans
    omega
  have h16 : x.toNat % 65536 ||| x.toNat / 65536 % 256 * 65536 = x.toNat % 16777216 := by
    apply (or_high (w := 16) (by omega) _).trans
    omega
  have h24 : x.toNat % 16777216 ||| x.toNat / 16777216 % 256 * 16777216 = x.toNat := by
    apply (or_high (w := 24) (by omega) _).trans
    omega
  rw [← UInt32.toNat_inj]
  simp only [UInt32.toNat_or, UInt32.toNat_shiftLeft, UInt8.toNat_toUInt32, UInt32.toNat_toUInt8,
    UInt32.toNat_shiftRight, UInt32.reduceToNat, Nat.reduceMod, Nat.reducePow, Nat.shiftLeft_eq, Nat.shiftRight_eq_div_pow]
  -- no octet is shifted out
  rw [Nat.mod_eq_of_lt (a := _ * 256) (by omega), Nat.mod_eq_of_lt (a := _ * 65536) (by omega),
    Nat.mod_eq_of_lt (a := _ * 16777216) (by omega), h8, h16, h24]

/-! ## Round trips -/

theorem packEndpoint_injective {ipv4' : UInt32} {port' : UInt16} (hip : ipv4 ≠ 0) (hport : port ≠ 0) (hip' : ipv4' ≠ 0)
    (hport' : port' ≠ 0) (h : packEndpoint ipv4 port = packEndpoint ipv4' port') : ipv4 = ipv4' ∧ port = port' := by
  constructor
  · rw [← ipv4_packEndpoint hip hport, h, ipv4_packEndpoint hip' hport']
  · rw [← port_packEndpoint hip hport, h, port_packEndpoint hip' hport']

theorem parseEndpointKey_joined (parseIPv6 : List Char → Option (List UInt8)) (a b c d : UInt8) (hport : port ≠ 0) :
    parseEndpointKey parseIPv6 (.ofList (joinHostPort (dotted a b c d) (decimal port.toNat))) =
      .ok (packEndpoint (a.toUInt32 ||| b.toUInt32 <<< 8 ||| c.toUInt32 <<< 16 ||| d.toUInt32 <<< 24) port) := by
  have hlt := port.toNat_lt
  have hpos : port.toNat ≠ 0 := fun h => hport (UInt16.toNat_inj.mp h)
  have hsplit := splitHostPort_joinHostPort (plain_dotted a b c d) (plain_decimal port.toNat)
  have hne : String.ofList (joinHostPort (dotted a b c d) (decimal port.toNat)) ≠ "" := by
    intro h
    rw [← String.toList_inj, String.toList_ofList] at h
    rw [h] at hsplit
    cases hsplit
  unfold parseEndpointKey
  rw [if_neg hne, String.toList_ofList, hsplit]
  simp only [atoi_decimal (show port.toNat < 2 ^ 63 by omega)]
  rw [if_neg (by omega)]
  simp only [parseIP_dotted, to4_mapped]
  simp

/-- The key of an address and a port is read back from its text, and no two pairs share a key. -/
theorem endpoint_key_round_trip (parseIPv6 : List Char → Option (List UInt8)) (ipv4 : UInt32) (port : UInt16)
    (hip : ipv4 ≠ 0) (hport : port ≠ 0) :
    parseEndpointKey parseIPv6 (formatEndpoint (packEndpoint ipv4 port)) = .ok (packEndpoint ipv4 port) ∧
    ∀ ipv4' port', ipv4' ≠ 0 → port' ≠ 0 → packEndpoint ipv4 port = packEndpoint ipv4' port' →
      ipv4 = ipv4' ∧ port = port' := by
  refine ⟨?_, fun ipv4' port' hip' hport' => packEndpoint_injective hip hport hip' hport'⟩
  unfold formatEndpoint
  rw [if_neg (packEndpoint_ne_zero hip hport)]
  simp only [port_packEndpoint hip hport, ipv4_packEndpoint hip hport]
  rw [parseEndpointKey_joined parseIPv6 _ _ _ _ hport, ipv4_of_octets]

theorem loopback_round_trip :
    formatEndpoint (packEndpoint 0x0100007f 8080) = "127.0.0.1:8080" ∧
    parseEndpointKey (fun _ => none) (formatEndpoint (packEndpoint 0x0100007f 8080)) = .ok (packEndpoint 0x0100007f 8080) :=
  ⟨by decide +kernel, (endpoint_key_round_trip _ 0x0100007f 8080 (by decide) (by decide)).1⟩

end AegisMesh.Ebpf
