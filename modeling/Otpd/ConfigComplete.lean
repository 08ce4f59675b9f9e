import Otpd.ConfigMemory

/-!
# Complete configurations

What otpd can count on once `config_init` has returned, whatever the configuration file.
-/

set_option autoImplicit false

namespace Otpd.ConfigFile

open CMem
open Cells (Run)
open Sections (Derives)
open Settings (execute)

/-! ## What a configuration has -/

section Ldap

variable {env : ConfigEnv} {vars next : ConfigVars}

end Ldap

/-! ## The servers -/

section Servers

variable {env : ConfigEnv} {vars next : ConfigVars}

/-- The servers of the file so far, and the one that is being read. -/
structure ServersOk (vars : ConfigVars) : Prop where
  names : (vars.gsmd.map ServerConfig.name).Nodup
  short : ∀ server ∈ vars.gsmd, server.name.length ≤ gsmMaxNameLen
  opened : ∀ name, vars.server.name = some name →
    name.length ≤ gsmMaxNameLen ∧ name ∉ vars.gsmd.map ServerConfig.name

theorem setServer_name {gsmd : List ServerConfig} {seen seen' : ServerSeen} {item : ServerItem}
    (step : Otpd.setServer gsmd seen item = some seen') {name : List Byte}
    (set : seen'.name = some name) :
    seen.name = some name ∨
      name.length ≤ gsmMaxNameLen ∧ name ∉ gsmd.map ServerConfig.name := by
  cases item with
  | name arg =>
      simp only [Otpd.setServer, setServerName] at step
      split_ifs at step with given long known
      · cases step
        exact .inl set
      · cases step
        cases set
        refine .inr ⟨Nat.not_lt.mp long, ?_⟩
        intro member
        obtain ⟨server, inside, rfl⟩ := List.mem_map.mp member
        exact known (List.any_eq_true.mpr ⟨server, inside, beq_self_eq_true _⟩)
  | primary arg | backup arg =>
      cases step
      exact .inl set
  | timeout arg =>
      cases step
      refine .inl ?_
      rw [← set, setServerTimeout]
      split
      · rfl
      · rfl
  | gport arg =>
      simp only [Otpd.setServer] at step
      split_ifs at step
      · cases step
        exact .inl set
      · obtain ⟨port, -, same⟩ := Option.map_eq_some_iff.mp step
        cases same
        exact .inl set
  | key arg =>
      simp only [Otpd.setServer, setServerKey] at step
      split_ifs at step
      · cases step
        exact .inl set
      · cases step
        exact .inl set

theorem ServersOk.item (ok : ServersOk vars) {item : ServerItem}
    (done : setServer vars item = .done next) : ServersOk next := by
  obtain ⟨server, found, same⟩ := Run.bind_eq_done done
  cases same
  refine ⟨ok.names, ok.short, ?_⟩
  intro name set
  rcases setServer_name (Run.ofOption_eq_done found) set with old | new
  · exact ok.opened name old
  · exact new

theorem ServersOk.finish (ok : ServersOk vars) (done : finishServer vars = .done next) :
    ServersOk next := by
  obtain ⟨server, found, same⟩ := Run.bind_eq_done done
  cases same
  have found := Run.ofOption_eq_done found
  have name : vars.server.name = some server.name := by
    rw [Otpd.finishServer] at found
    split at found
    · rename_i name primary key isName isPrimary isKey
      cases found
      exact isName
    · cases found
  obtain ⟨short, fresh⟩ := ok.opened server.name name
  refine ⟨?_, ?_, ?_⟩
  · rw [List.map_append]
    exact List.nodup_append.mpr ⟨ok.names, List.nodup_singleton _, by
      intro a member b last same
      rw [List.mem_singleton.mp last] at same
      exact fresh (same ▸ member)⟩
  · intro server' member
    rcases List.mem_append.mp member with member | member
    · exact ok.short server' member
    · rw [List.mem_singleton.mp member]
      exact short
  · intro name set
    cases set

/-- The servers, with one for the file backend exactly when it has a section. -/
structure ServersNamed (rest : ConfigRest) (gsmd : List ServerConfig)
    (gsmds : List ConfiguredGsmd) : Prop where
  one : gsmd ≠ []
  names : gsmds.map ConfiguredGsmd.name = gsmd.map ServerConfig.name
  found : gsmd.countP (fun server => rest.fileBackend && server.name == rest.fileGsmd) =
    if rest.seenFile then 1 else 0

/-- The server of the file backend is one of them exactly when there is a file section. -/
theorem ServersNamed.file {rest : ConfigRest} {gsmd : List ServerConfig}
    {gsmds : List ConfiguredGsmd} (named : ServersNamed rest gsmd gsmds)
    (backend : rest.fileBackend = true) :
    rest.fileGsmd ∈ gsmds.map ConfiguredGsmd.name ↔ rest.seenFile = true := by
  have found := named.found
  rw [named.names]
  constructor
  · intro member
    obtain ⟨server, inside, same⟩ := List.mem_map.mp member
    by_contra noFile
    rw [if_neg noFile, List.countP_eq_zero] at found
    refine found server inside ?_
    rw [backend, same]
    exact beq_self_eq_true _
  · intro seenFile
    rw [if_pos seenFile] at found
    obtain ⟨server, inside, same⟩ := List.countP_pos_iff.mp (found.symm ▸ Nat.one_pos)
    rw [backend, Bool.true_and] at same
    exact List.mem_map.mpr ⟨server, inside, eq_of_beq same⟩

theorem ServersNamed.ldap {rest : ConfigRest} {gsmd : List ServerConfig}
    {gsmds : List ConfiguredGsmd} (named : ServersNamed rest gsmd gsmds)
    (backend : rest.fileBackend = false) : rest.seenFile = false := by
  have found := named.found
  by_contra seenFile
  rw [if_pos (Bool.not_eq_false _ ▸ seenFile)] at found
  simp [backend] at found

end Servers

/-! ## What `config_init` returns -/

section Complete

variable {env : ConfigEnv} {vars : ConfigVars} {c : Configuration}

end Complete

end Otpd.ConfigFile
