import Mathlib
import NetworkLoop.Core.Domain

/-! The role table of the installer (`InstallRoleV1` of `install_journal.rs`).

A role is one object of the installed layout. The table fixes its path, its mode
and its place in the order in which a transaction applies its entries;
`installOrder_lt_of_under` says that this order respects the nesting of the paths,
so a directory always comes before what lies in it. -/
namespace NetworkLoop.Install

inductive InstallRoleV1 where
  | evidenceRoot
  | daemon
  | cli
  | usrRoot
  | usrBinRoot
  | usrLibRoot
  | usrLibexecRoot
  | productLibexecRoot
  | usrLibSystemdRoot
  | systemdUnitRoot
  | usrShareRoot
  | usrShareDocRoot
  | productDocRoot
  | etcRoot
  | configRoot
  | varRoot
  | varLibRoot
  | stateRoot
  | gatesRoot
  | evidenceParent
  | installRoot
  | transactionsRoot
  | deploymentChecker
  | installer
  | hostChecker
  | ebpfObject
  | bundleManifest
  | bundleChecksums
  | serviceUnit
  | authorizationExample
  | deploymentAuthorization
  | performanceEvidence
  deriving DecidableEq, Repr

namespace InstallRoleV1

def fixedDestination : InstallRoleV1 → String
  | .usrRoot => "/usr"
  | .usrBinRoot => "/usr/bin"
  | .usrLibRoot => "/usr/lib"
  | .usrLibexecRoot => "/usr/libexec"
  | .productLibexecRoot => "/usr/libexec/l2-loop"
  | .usrLibSystemdRoot => "/usr/lib/systemd"
  | .systemdUnitRoot => "/usr/lib/systemd/system"
  | .usrShareRoot => "/usr/share"
  | .usrShareDocRoot => "/usr/share/doc"
  | .productDocRoot => "/usr/share/doc/l2-loop"
  | .etcRoot => "/etc"
  | .configRoot => "/etc/l2-loop"
  | .varRoot => "/var"
  | .varLibRoot => "/var/lib"
  | .stateRoot => "/var/lib/l2-loop"
  | .gatesRoot => "/var/lib/l2-loop/gates"
  | .evidenceParent => "/var/lib/l2-loop/evidence"
  | .evidenceRoot => "/var/lib/l2-loop/evidence/v1"
  | .installRoot => "/var/lib/l2-loop/install"
  | .transactionsRoot => "/var/lib/l2-loop/install/transactions"
  | .cli => "/usr/bin/l2-loopctl"
  | .daemon => "/usr/libexec/l2-loop/l2-loopd"
  | .deploymentChecker => "/usr/libexec/l2-loop/l2-loop-deploycheck"
  | .installer => "/usr/libexec/l2-loop/l2-loop-install"
  | .hostChecker => "/usr/libexec/l2-loop/l2-loop-hostcheck"
  | .ebpfObject => "/usr/libexec/l2-loop/l2-loop-ebpf.o"
  | .bundleManifest => "/usr/libexec/l2-loop/manifest.json"
  | .bundleChecksums => "/usr/libexec/l2-loop/SHA256SUMS"
  | .serviceUnit => "/usr/lib/systemd/system/l2-loop.service"
  | .authorizationExample => "/usr/share/doc/l2-loop/deployment-v1.example.json"
  | .deploymentAuthorization => "/etc/l2-loop/deployment-v1.json"
  | .performanceEvidence => "/var/lib/l2-loop/gates/performance-v1.json"

def expectedMode : InstallRoleV1 → Nat
  | .configRoot | .stateRoot | .gatesRoot | .evidenceParent | .evidenceRoot | .installRoot
  | .transactionsRoot => 0o700
  | .deploymentAuthorization | .performanceEvidence => 0o600
  | .ebpfObject | .bundleManifest | .bundleChecksums | .serviceUnit | .authorizationExample => 0o644
  | _ => 0o755

def installOrder : InstallRoleV1 → Nat
  | .usrRoot => 0
  | .usrBinRoot => 1
  | .usrLibRoot => 2
  | .usrLibexecRoot => 3
  | .productLibexecRoot => 4
  | .usrLibSystemdRoot => 5
  | .systemdUnitRoot => 6
  | .usrShareRoot => 7
  | .usrShareDocRoot => 8
  | .productDocRoot => 9
  | .etcRoot => 10
  | .configRoot => 11
  | .varRoot => 12
  | .varLibRoot => 13
  | .stateRoot => 14
  | .gatesRoot => 15
  | .evidenceParent => 16
  | .evidenceRoot => 17
  | .installRoot => 18
  | .transactionsRoot => 19
  | .cli => 20
  | .daemon => 21
  | .deploymentChecker => 22
  | .installer => 23
  | .hostChecker => 24
  | .ebpfObject => 25
  | .bundleManifest => 26
  | .bundleChecksums => 27
  | .serviceUnit => 28
  | .authorizationExample => 29
  | .deploymentAuthorization => 30
  | .performanceEvidence => 31

/-- The directories that hold the journals: a rollback leaves them in place. -/
def isJournalRetentionDirectory : InstallRoleV1 → Bool
  | .stateRoot | .installRoot | .transactionsRoot => true
  | _ => false

def isDirectory (r : InstallRoleV1) : Bool := r.installOrder < 20

/-- Every role, in install order. -/
def all : List InstallRoleV1 :=
  [.usrRoot, .usrBinRoot, .usrLibRoot, .usrLibexecRoot, .productLibexecRoot, .usrLibSystemdRoot,
    .systemdUnitRoot, .usrShareRoot, .usrShareDocRoot, .productDocRoot, .etcRoot, .configRoot,
    .varRoot, .varLibRoot, .stateRoot, .gatesRoot, .evidenceParent, .evidenceRoot, .installRoot,
    .transactionsRoot, .cli, .daemon, .deploymentChecker, .installer, .hostChecker, .ebpfObject,
    .bundleManifest, .bundleChecksums, .serviceUnit, .authorizationExample,
    .deploymentAuthorization, .performanceEvidence]

theorem mem_all (r : InstallRoleV1) : r ∈ all := by
  cases r <;> decide

instance : Fintype InstallRoleV1 where
  elems := ⟨all, by decide⟩
  complete := mem_all

theorem installOrder_injective : Function.Injective installOrder := by
  intro a b
  revert a b
  decide

/-- `inner` lies in the directory `outer`, at any depth. -/
def Under (inner outer : InstallRoleV1) : Prop :=
  (outer.fixedDestination.toList ++ ['/']) <+: inner.fixedDestination.toList

instance (inner outer : InstallRoleV1) : Decidable (Under inner outer) :=
  inferInstanceAs (Decidable (_ <+: _))

/-- **The install order follows the paths.** -/
theorem installOrder_lt_of_under : ∀ inner outer : InstallRoleV1, Under inner outer →
    outer.isDirectory = true ∧ outer.installOrder < inner.installOrder := by
  decide +kernel

end InstallRoleV1

end NetworkLoop.Install
