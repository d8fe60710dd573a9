import ImageBasedInstall.Verify.Footprints

/-!
# The outputs of a build

A finished build leaves four files in its work directory. Which calls can write them: within a build
those of the installer and of the reinstall data, and only in the build's own directory; outside of
builds none. Every other call leaves an output as it is or removes it.
-/

namespace ImageBasedInstall

open Interactive

variable {B : Type}

/-- The files `verifyIsoAndAuthExists` looks for, relative to the work directory. -/
def buildOutputs : List (List String) :=
  [isoPath, kubeadminPasswordPath, kubeconfigPath, manifestPath]

/-- The call can put something at the path. -/
def Op.writes : Op B → Path → Prop
  | .writeFile q _, p => p = q
  | .writeIso q _ _, p => p = q
  | .mkdirAll q, p => q.within p = true
  | .mkdirTemp, p => ∃ name, p.root = .temp name
  | _, _ => False

theorem kept_or_gone {op : Op B} {c : Choice B} {w w' : World B} {r : Resp op} {p : Path}
    (hc : answer op c w = (r, w')) (h : ¬op.writes p) : w'.fs p = w.fs p ∨ w'.fs p = none := by
  have hprune : ∀ which kept, (w.prune which kept).fs p = w.fs p ∨
      (w.prune which kept).fs p = none := by
    intro which kept
    simp only [World.prune]
    split
    · exact .inr rfl
    · exact .inl rfl
  cases op with
  | writeFile q content =>
    have hq : p ≠ q := h
    obtain ⟨-, rfl⟩ | ⟨e, -, rfl | ⟨b, rfl⟩⟩ := answer_writeFile hc
    · exact .inl (Function.update_of_ne hq ..)
    · exact .inl rfl
    · exact .inl (Function.update_of_ne hq ..)
  | writeIso q image builtFrom =>
    have hq : p ≠ q := h
    obtain ⟨-, rfl⟩ | ⟨e, -, rfl | ⟨b, rfl⟩⟩ := answer_writeIso hc
    · exact .inl (Function.update_of_ne hq ..)
    · exact .inl rfl
    · exact .inl (Function.update_of_ne hq ..)
  | mkdirAll q =>
    have hq : ¬q.within p = true := h
    rcases Choice.write_eq hc with ⟨rfl, -⟩ | ⟨rfl, -⟩
    · exact .inl (by simp [World.mkdirs, hq])
    · exact .inl rfl
  | mkdirTemp =>
    have hroot : ∀ name, p.root ≠ .temp name := fun name hp => h ⟨name, hp⟩
    rcases Choice.write_eq hc with ⟨rfl, -⟩ | ⟨rfl, -⟩
    · refine .inl ?_
      have hwithin : p.within ⟨.temp c.tempName, []⟩ = false := by
        simp [Path.within, hroot c.tempName]
      have hwithin' : (⟨.temp c.tempName, []⟩ : Path).within p = false := by
        simp [Path.within, Ne.symm (hroot c.tempName)]
      simp [World.mkdirs, World.prune, hwithin, hwithin']
    · exact .inl rfl
  | purge which =>
    obtain ⟨-, rfl⟩ | ⟨e, kept, -, rfl⟩ := Choice.removal_eq hc
    · exact hprune ..
    · exact hprune ..
  | removeAll q =>
    obtain ⟨-, rfl⟩ | ⟨e, kept, -, rfl⟩ := Choice.removal_eq hc
    · exact hprune ..
    · exact hprune ..
  | _ => exact .inl (by rw [(answer_framed hc).fs (by simp [Op.target]) (by simp [Op.target])])

/-! ## Paths of outputs -/

section Paths

variable {ns uid ns' uid' : String} {file elems : List String}

theorem output_ne_scratch (hfile : file ∈ buildOutputs) {tmp : Path} {name : String}
    (hname : name ∈ [installConfigFilename, imageBasedConfigFilename, stateFileName]) :
    (getClusterConfigDir ns uid).join file ≠ tmp.join [name] := by
  have hlast : ∀ file ∈ buildOutputs,
      ∀ name ∈ [installConfigFilename, imageBasedConfigFilename, stateFileName],
        file.getLast?.any (· != name) = true := by decide
  obtain ⟨name', hlast, hne⟩ := (Option.any_eq_true _ _).1 (hlast file hfile name hname)
  intro h
  have hrel := congrArg (fun p => p.rel.getLast?) h
  simp only [Path.join, List.getLast?_append, hlast, Option.some_or, List.getLast?_singleton,
    Option.some.injEq] at hrel
  simp [hrel] at hne

/-- Paths of work directories agree if the directories and the names below them do. -/
theorem workDir_join_inj
    (h : (getClusterConfigDir ns uid).join file = (getClusterConfigDir ns' uid').join elems) :
    ns = ns' ∧ uid = uid' ∧ file = elems := by
  simpa [getClusterConfigDir, Path.join, and_assoc] using h

/-- Directories that a build creates in a work directory contain no output. -/
theorem not_within_output (hfile : file ∈ buildOutputs)
    (helems : elems ∈ [[], [extraManifestsDir], [authDir], [clusterConfigDir]]) :
    ((getClusterConfigDir ns uid).join elems).within ((getClusterConfigDir ns' uid').join file) =
      false := by
  have h : ∀ file ∈ buildOutputs,
      ∀ elems ∈ [[], [extraManifestsDir], [authDir], [clusterConfigDir]],
        ([filesDir, clusterConfigDir] ++ file).isPrefixOf
          ([filesDir, clusterConfigDir] ++ elems) = false := by decide
  simp only [Path.within, Path.join, getClusterConfigDir, h file hfile elems helems, Bool.and_false]

/-- A file operation of a build that writes an output writes one of the build's own. -/
theorem BuildFile.writes_output {op : Op B} (h : BuildFile (getClusterConfigDir ns uid) op)
    (hfile : file ∈ buildOutputs) (hw : op.writes ((getClusterConfigDir ns' uid').join file)) :
    ns' = ns ∧ uid' = uid ∧ file ≠ isoPath ∧
      ∃ content, op = .writeFile ((getClusterConfigDir ns uid).join file) content := by
  have hextra : ∀ file ∈ buildOutputs, file.head? ≠ some extraManifestsDir := by decide
  have houtput : ∀ file ∈ [kubeconfigPath, kubeadminPasswordPath, manifestPath],
      file ≠ isoPath := by
    decide
  cases h with
  | files =>
    have hlen : ([filesDir, clusterConfigDir] ++ file).isPrefixOf [filesDir] = false := by simp
    simp only [Op.writes, Path.within, Path.join, getClusterConfigDir, hlen, Bool.and_false] at hw
    cases hw
  | lock => simp [Op.writes, Path.join, getClusterConfigDir] at hw
  | subdir helems =>
    rw [Op.writes, not_within_output hfile helems] at hw
    cases hw
  | extraManifest =>
    obtain ⟨-, -, rfl⟩ := workDir_join_inj hw
    exact absurd rfl (hextra _ hfile)
  | scratch hname => exact absurd hw (output_ne_scratch hfile (List.mem_cons_of_mem _ hname))
  | purge => exact hw.elim
  | removal => exact hw.elim
  | temp =>
    obtain ⟨name, hroot⟩ := hw
    cases hroot
  | output helems =>
    obtain ⟨rfl, rfl, rfl⟩ := workDir_join_inj hw
    exact ⟨rfl, rfl, houtput _ helems, _, rfl⟩

theorem WritesNetworks.not_writes_output {E : Env B} {inp : BuildInput} {tmp : Path} {op : Op B}
    (h : WritesNetworks E inp tmp op) (hfile : file ∈ buildOutputs) :
    ¬op.writes ((getClusterConfigDir ns uid).join file) := by
  cases h
  exact output_ne_scratch hfile (List.mem_cons_self ..)

theorem Tidies.not_writes_output {E : Env B} {op : Op B} (h : Tidies E (lockDirOf ns' uid') op) :
    ¬op.writes ((getClusterConfigDir ns uid).join file) := by
  cases h with
  | files => simp [Op.writes, Path.within, Path.join, getClusterConfigDir, lockDirOf]
  | lock => simp [Op.writes, Path.join, getClusterConfigDir, lockDirOf]
  | removal => exact id

end Paths

end ImageBasedInstall
