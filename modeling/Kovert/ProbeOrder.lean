import Kovert.PollRuns
import Kovert.Probing
import Kovert.Foundations.Listings

/-!
# Probes and the order of directories

`read_dir` lists in no particular order. The flags of the network and power
probes are disjunctions and do not mind; the active interface and the battery
level are those of the first entry that has one, so a host with two different
ones changes its state from poll to poll although nothing on it has changed.
-/

namespace Kovert

open Listings

/-! ## The loops as queries of the listing -/

def NetworkEntry.uplink (entry : NetworkEntry) : Option String :=
  if entry.isUp then some entry.name else none

/-- The capacity that the scan takes from a battery. -/
def PowerSupply.level (supply : PowerSupply) : Option UInt8 :=
  if supply.isMains then none else if supply.isBattery then supply.percent else none

/-- What a supply adds to `on_ac`. -/
def PowerSupply.addMains (onAc : Option Bool) (supply : PowerSupply) : Option Bool :=
  if supply.isMains then
    match supply.supplyOnline with
    | some online => some (onAc.getD false || online)
    | none => onAc
  else onAc

theorem foldl_network (entries : List NetworkEntry) (state : NetworkState) :
    entries.foldl NetworkState.scan state =
      ⟨state.online || entries.any NetworkEntry.isUp,
        state.interface.or (entries.findSome? NetworkEntry.uplink),
        state.vpn || entries.any (fun entry => entry.isUp && entry.isVpn)⟩ := by
  induction entries generalizing state with
  | nil => simp
  | cons entry entries ih =>
      rw [List.foldl_cons, ih, List.findSome?_cons, List.any_cons, List.any_cons,
        NetworkState.scan, NetworkEntry.uplink]
      cases entry.isUp with
      | false => simp
      | true => cases state.interface <;> cases entry.isVpn <;> simp

theorem foldl_power (supplies : List PowerSupply) (state : Option Bool × Option UInt8) :
    supplies.foldl PowerSupply.scan state =
      (supplies.foldl PowerSupply.addMains state.1,
        state.2.or (supplies.findSome? PowerSupply.level)) := by
  induction supplies generalizing state with
  | nil => simp
  | cons supply supplies ih =>
      rw [List.foldl_cons, List.foldl_cons, ih, List.findSome?_cons, PowerSupply.scan,
        PowerSupply.addMains, PowerSupply.level]
      cases supply.isMains with
      | true => cases supply.supplyOnline <;> simp
      | false =>
          cases supply.isBattery with
          | false => simp
          | true => cases hlevel : state.2 <;> cases supply.percent <;> simp [hlevel]

theorem addMains_comm (onAc : Option Bool) (left right : PowerSupply) :
    PowerSupply.addMains (PowerSupply.addMains onAc left) right =
      PowerSupply.addMains (PowerSupply.addMains onAc right) left := by
  unfold PowerSupply.addMains
  cases left.isMains <;> cases right.isMains <;> try rfl
  cases left.supplyOnline <;> cases right.supplyOnline <;> try rfl
  simp [Bool.or_right_comm]

/-- The mains flag does not depend on the order. -/
theorem foldl_addMains_perm {supplies other : List PowerSupply} (h : supplies.Perm other)
    (onAc : Option Bool) :
    other.foldl PowerSupply.addMains onAc = supplies.foldl PowerSupply.addMains onAc :=
  h.symm.foldl_eq' (fun left _ right _ onAc => addMains_comm onAc left right) onAc

/-! ## Listings that can be read in any order -/

/-- The probe of the interfaces listed without an error. -/
def listedNetwork (entries : List NetworkEntry) : Except String NetworkState :=
  probeNetwork (.ok (entries.map .ok))

def listedPower (supplies : List PowerSupply) (lid : Directory Contents) :
    Except String PowerState :=
  probePower (some (.ok (supplies.map .ok))) lid

theorem listedNetwork_eq (entries : List NetworkEntry) :
    listedNetwork entries = .ok ⟨entries.any NetworkEntry.isUp,
      entries.findSome? NetworkEntry.uplink,
      entries.any (fun entry => entry.isUp && entry.isVpn)⟩ := by
  rw [listedNetwork, probeNetwork, scanDirectory_ok, foldl_network]
  simp [NetworkState.start]

theorem listedPower_eq (supplies : List PowerSupply) (lid : Directory Contents) :
    listedPower supplies lid = .ok ⟨supplies.foldl PowerSupply.addMains none,
      supplies.findSome? PowerSupply.level, probeLid lid⟩ := by
  simp only [listedPower, probePower, scanDirectory_ok, foldl_power, Option.none_or]
  rfl

/-- No listing of the same entries in another order gives another state, or an
event when the poller last read the first listing. -/
structure OrderFree (entries : List NetworkEntry) (supplies : List PowerSupply) : Prop where
  network : ∀ other, entries.Perm other → listedNetwork other = listedNetwork entries
  power : ∀ other, supplies.Perm other → ∀ lid, listedPower other lid = listedPower supplies lid
  networkQuiet : ∀ other, entries.Perm other → ∀ (poller : Poller) before probes value,
    listedNetwork entries = .ok value → poller.lastAnswer .network before = some value →
    probes.network = listedNetwork other →
    ∀ emission ∈ (poller.pollCycle probes (poller.stateAfter before)).2,
      emission.kind.topic ≠ some .network
  powerQuiet : ∀ other, supplies.Perm other → ∀ lid (poller : Poller) before probes value,
    listedPower supplies lid = .ok value → poller.lastAnswer .power before = some value →
    probes.power = listedPower other lid →
    ∀ emission ∈ (poller.pollCycle probes (poller.stateAfter before)).2,
      emission.kind.topic ≠ some .power

/-- A sensor that reports nothing for its own baseline is silent on the value it last read. -/
theorem quiet_of_same {poller : Poller} {sensor : Sensor} {before : List Probes} {probes : Probes}
    {value : sensor.Value}
    (hsilent : sensor.report poller.requirements false (sensor.keep value) value = [])
    (hlast : poller.lastAnswer sensor before = some value)
    (hok : probes.result poller.requirements sensor = .ok value) :
    ∀ emission ∈ (poller.pollCycle probes (poller.stateAfter before)).2,
      emission.kind.topic ≠ some sensor := by
  intro emission hmem htopic
  have hrequired := ((Poller.mem_pollCycle_of_topic poller probes htopic).mp hmem).1
  have hkind := ((Poller.mem_pollCycle_later hrequired hlast hok htopic).mp hmem).2
  rw [hsilent] at hkind
  cases hkind

/-- All interfaces that are up, the loopback aside, have one name. -/
def OneUplink (entries : List NetworkEntry) : Prop :=
  ∀ left ∈ entries, ∀ right ∈ entries, left.isUp = true → right.isUp = true →
    left.name = right.name

/-- All batteries whose capacity can be read have the same. -/
def OneLevel (supplies : List PowerSupply) : Prop :=
  ∀ left ∈ supplies, ∀ right ∈ supplies, left.isMains = false → left.isBattery = true →
    right.isMains = false → right.isBattery = true → ∀ x y, left.percent = some x →
    right.percent = some y → x = y

theorem oneUplink_iff {entries : List NetworkEntry} :
    OneUplink entries ↔ Agree NetworkEntry.uplink entries := by
  constructor
  · intro h left hleft right hright x y hx hy
    unfold NetworkEntry.uplink at hx hy
    split_ifs at hx hy with hl hr
    cases hx
    cases hy
    exact h left hleft right hright hl hr
  · intro h left hleft right hright hl hr
    exact h left hleft right hright _ _ (if_pos hl) (if_pos hr)

theorem oneLevel_iff {supplies : List PowerSupply} :
    OneLevel supplies ↔ Agree PowerSupply.level supplies := by
  have hlevel : ∀ (supply : PowerSupply) x, supply.level = some x ↔
      supply.isMains = false ∧ supply.isBattery = true ∧ supply.percent = some x := by
    intro supply x
    unfold PowerSupply.level
    cases supply.isMains <;> cases supply.isBattery <;> simp
  simp only [OneLevel, Agree, hlevel]
  constructor
  · rintro h left hleft right hright x y ⟨hlm, hlb, hx⟩ ⟨hrm, hrb, hy⟩
    exact h left hleft right hright hlm hlb hrm hrb x y hx hy
  · intro h left hleft right hright hlm hlb hrm hrb x y hx hy
    exact h left hleft right hright x y ⟨hlm, hlb, hx⟩ ⟨hrm, hrb, hy⟩

/-- The probes do not depend on the order of the directories exactly when there
is at most one uplink and one battery level. -/
theorem probes_order_free_iff (entries : List NetworkEntry) (supplies : List PowerSupply) :
    OrderFree entries supplies ↔ OneUplink entries ∧ OneLevel supplies := by
  rw [oneUplink_iff, oneLevel_iff, ← findSome?_perm_iff, ← findSome?_perm_iff]
  constructor
  · intro h
    constructor
    · intro other hperm
      have hsame := h.network other hperm
      rw [listedNetwork_eq, listedNetwork_eq] at hsame
      exact congrArg NetworkState.interface (Except.ok.inj hsame)
    · intro other hperm
      have hsame := h.power other hperm (.ok [])
      rw [listedPower_eq, listedPower_eq] at hsame
      exact congrArg PowerState.batteryPercent (Except.ok.inj hsame)
  · rintro ⟨hnetwork, hpower⟩
    have hlisted : ∀ other, entries.Perm other → listedNetwork other = listedNetwork entries := by
      intro other hperm
      rw [listedNetwork_eq, listedNetwork_eq, hnetwork other hperm, any_perm hperm, any_perm hperm]
    have hsupplied : ∀ other, supplies.Perm other → ∀ lid,
        listedPower other lid = listedPower supplies lid := by
      intro other hperm lid
      rw [listedPower_eq, listedPower_eq, hpower other hperm, foldl_addMains_perm hperm]
    refine ⟨hlisted, hsupplied, ?_, ?_⟩
    · intro other hperm poller before probes value hvalue hlast hprobes
      refine quiet_of_same (if_neg ?_) hlast ((hprobes.trans (hlisted other hperm)).trans hvalue)
      simp [Sensor.keep]
    · intro other hperm lid poller before probes value hvalue hlast hprobes
      refine quiet_of_same (if_neg ?_) hlast
        ((hprobes.trans (hsupplied other hperm lid)).trans hvalue)
      simp [Sensor.keep]

def upEntry (name : String) : NetworkEntry := ⟨name, some "up\n"⟩

def battery (capacity : String) : PowerSupply := ⟨some "Battery\n", none, some capacity⟩

/-- Two interfaces are up and two batteries differ: listed the other way round
they give other states, and a network event although nothing has changed. -/
theorem two_uplinks_swap :
    (listedNetwork [upEntry "eth0", upEntry "wlan0"]).map NetworkState.interface =
        .ok (some "eth0") ∧
      (listedNetwork [upEntry "wlan0", upEntry "eth0"]).map NetworkState.interface =
        .ok (some "wlan0") ∧
      (listedPower [battery "80", battery "15"] (.ok [])).map PowerState.batteryPercent =
        .ok (some 80) ∧
      (listedPower [battery "15", battery "80"] (.ok [])).map PowerState.batteryPercent =
        .ok (some 15) ∧
      ((testPoller { SensorRequirements.default with network := true }).pollCycle
          { downProbes with network := listedNetwork [upEntry "wlan0", upEntry "eth0"] }
          ((testPoller { SensorRequirements.default with network := true }).stateAfter
            [{ downProbes with
              network := listedNetwork [upEntry "eth0", upEntry "wlan0"] }])).2 =
        [⟨"network", .network true (some "wlan0") false⟩] ∧
      ¬ OrderFree [upEntry "eth0", upEntry "wlan0"] [] ∧
      ¬ OrderFree [] [battery "80", battery "15"] := by
  have hnetwork : (listedNetwork [upEntry "eth0", upEntry "wlan0"]).map NetworkState.interface =
      .ok (some "eth0") := by decide +kernel
  have hnetwork' : (listedNetwork [upEntry "wlan0", upEntry "eth0"]).map NetworkState.interface =
      .ok (some "wlan0") := by decide +kernel
  have hpower : (listedPower [battery "80", battery "15"] (.ok [])).map
      PowerState.batteryPercent = .ok (some 80) := by decide +kernel
  have hpower' : (listedPower [battery "15", battery "80"] (.ok [])).map
      PowerState.batteryPercent = .ok (some 15) := by decide +kernel
  refine ⟨hnetwork, hnetwork', hpower, hpower', by decide +kernel, ?_, ?_⟩
  · intro h
    rw [h.network _ (List.Perm.swap _ _ _), hnetwork] at hnetwork'
    exact absurd hnetwork' (by decide)
  · intro h
    rw [h.power _ (List.Perm.swap _ _ _), hpower] at hpower'
    exact absurd hpower' (by decide)

end Kovert
