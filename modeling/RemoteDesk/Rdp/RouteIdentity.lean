/-
The identity of a route (cpp/rdp/rdp_gateway_policy.h).

A decision about a certificate is kept under `routeIdentity` of the route it
was made for. The identity is the fields of the route in a row, each with its
length in front, so no byte of a host name can pass for the end of a field:
two routes have one identity when they agree in every field, a server name
left empty being the host it stands for (`routeIdentity_eq_iff`).

Strings are lists of bytes, ports are integers of any sign.
-/
import RemoteDesk.Lib.Numeral

namespace RemoteDesk.Rdp

open Lib

inductive RdpEndpointMode
  | directRdp | transparentTcpRdp | microsoftRdGateway
  | vendorHttpsBastion | azureBastion | unknownGateway
  deriving DecidableEq

inductive RdpGatewayTransport
  | auto | http | rpc | websocket | noWebsockets
  deriving DecidableEq

structure RdpEndpointRoute where
  endpointMode : RdpEndpointMode := .directRdp
  targetHost : List Nat := []
  targetPort : Int := 3389
  targetServerName : List Nat := []
  gatewayHost : List Nat := []
  gatewayPort : Int := 443
  gatewayServerName : List Nat := []
  gatewayTransport : RdpGatewayTransport := .auto

def endpointModeName : RdpEndpointMode → List Nat
  | .directRdp => codes "direct_rdp"
  | .transparentTcpRdp => codes "transparent_tcp_rdp"
  | .microsoftRdGateway => codes "microsoft_rd_gateway"
  | .vendorHttpsBastion => codes "vendor_https_bastion"
  | .azureBastion => codes "azure_bastion"
  | .unknownGateway => codes "unknown_gateway"

def gatewayTransportName : RdpGatewayTransport → List Nat
  | .auto => codes "auto"
  | .http => codes "http"
  | .rpc => codes "rpc"
  | .websocket => codes "websocket"
  | .noWebsockets => codes "no-websockets"

/-- `std::to_string` of an `int`. -/
def decimal (n : Int) : List Nat :=
  if n < 0 then codes "-" ++ numeral 10 n.natAbs else numeral 10 n.natAbs

/-- The name a certificate is checked for. -/
def effectiveName (serverName host : List Nat) : List Nat :=
  if serverName.isEmpty then host else serverName

namespace RdpEndpointRoute

def targetName (route : RdpEndpointRoute) : List Nat :=
  effectiveName route.targetServerName route.targetHost

def gatewayName (route : RdpEndpointRoute) : List Nat :=
  effectiveName route.gatewayServerName route.gatewayHost

end RdpEndpointRoute

def routeIdentity (route : RdpEndpointRoute) : List Nat :=
  codes "rdp-route-v2|" ++ lengthPrefixed (endpointModeName route.endpointMode)
    ++ lengthPrefixed route.targetHost
    ++ lengthPrefixed (decimal route.targetPort)
    ++ lengthPrefixed route.targetName ++ lengthPrefixed route.gatewayHost
    ++ lengthPrefixed (decimal route.gatewayPort)
    ++ lengthPrefixed route.gatewayName
    ++ lengthPrefixed (gatewayTransportName route.gatewayTransport)

-- ================================== fields

/-- What a certificate decision depends on. -/
structure SameRoute (r s : RdpEndpointRoute) : Prop where
  endpointMode : r.endpointMode = s.endpointMode
  targetHost : r.targetHost = s.targetHost
  targetPort : r.targetPort = s.targetPort
  targetName : r.targetName = s.targetName
  gatewayHost : r.gatewayHost = s.gatewayHost
  gatewayPort : r.gatewayPort = s.gatewayPort
  gatewayName : r.gatewayName = s.gatewayName
  gatewayTransport : r.gatewayTransport = s.gatewayTransport

theorem endpointModeName_inj {a b : RdpEndpointMode}
    (h : endpointModeName a = endpointModeName b) : a = b := by
  cases a <;> cases b <;> first | rfl | exact absurd h (by decide)

theorem gatewayTransportName_inj {a b : RdpGatewayTransport}
    (h : gatewayTransportName a = gatewayTransportName b) : a = b := by
  cases a <;> cases b <;> first | rfl | exact absurd h (by decide)

/-- A sign is no digit. -/
theorem decimal_inj {m n : Int} (h : decimal m = decimal n) : m = n := by
  have hsign : ∀ j k : Nat, codes "-" ++ numeral 10 j ≠ numeral 10 k := by
    intro j k heq
    have hmem : 45 ∈ numeral 10 k := by
      rw [← heq]
      exact List.mem_cons_self
    exact absurd (isDigitCode_of_mem hmem) (by decide)
  have hdigits : ∀ {j k : Nat}, numeral 10 j = numeral 10 k → j = k :=
    fun h => numeral_inj (by norm_num) (by norm_num) h
  unfold decimal at h
  by_cases hm : m < 0 <;> by_cases hn : n < 0
  · rw [if_pos hm, if_pos hn] at h
    have habs := hdigits (List.append_cancel_left h)
    omega
  · rw [if_pos hm, if_neg hn] at h
    exact absurd h (hsign _ _)
  · rw [if_neg hm, if_pos hn] at h
    exact absurd h.symm (hsign _ _)
  · rw [if_neg hm, if_neg hn] at h
    have habs := hdigits h
    omega

/-- The fields of an identity, in the order they are written. -/
def identityFields (route : RdpEndpointRoute) : List (List Nat) :=
  [endpointModeName route.endpointMode, route.targetHost,
    decimal route.targetPort, route.targetName, route.gatewayHost,
    decimal route.gatewayPort, route.gatewayName,
    gatewayTransportName route.gatewayTransport]

theorem routeIdentity_eq (route : RdpEndpointRoute) :
    routeIdentity route = codes "rdp-route-v2|"
      ++ (identityFields route).flatMap lengthPrefixed := by
  simp only [routeIdentity, identityFields, List.flatMap_cons,
    List.flatMap_nil, List.append_nil, List.append_assoc]

theorem identityFields_inj {r s : RdpEndpointRoute}
    (h : identityFields r = identityFields s) : SameRoute r s := by
  simp only [identityFields, List.cons.injEq, and_true] at h
  obtain ⟨hmode, hhost, hport, hname, hghost, hgport, hgname, htransport⟩ := h
  exact ⟨endpointModeName_inj hmode, hhost, decimal_inj hport, hname, hghost,
    decimal_inj hgport, hgname, gatewayTransportName_inj htransport⟩

/-- Two routes have one identity exactly when nothing that a certificate
decision depends on tells them apart. -/
theorem routeIdentity_eq_iff (r s : RdpEndpointRoute) :
    routeIdentity r = routeIdentity s ↔ SameRoute r s := by
  rw [routeIdentity_eq, routeIdentity_eq]
  constructor
  · intro h
    apply identityFields_inj
    exact flatMap_lengthPrefixed_inj (List.append_cancel_left h)
  · rintro ⟨hmode, hhost, hport, hname, hghost, hgport, hgname, htransport⟩
    simp only [identityFields, hmode, hhost, hport, hname, hghost, hgport,
      hgname, htransport]

end RemoteDesk.Rdp
