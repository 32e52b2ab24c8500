import MetabaseNet.Blockchain.Entry

/-! `CBbEntry::Initialize`, `InitializeModules` and `AttachModule`: the start of a node. The
checks of `Initialize` run in the source's order over the configuration and the answers of the
file system, the fork, the log and the docker; then the module loop attaches one object per
module of the mode, in order, stops at the first failure, and gives the HTTP server the hosts of
`GetRPCHostConfig` for the genesis chain that `Initialize` has just set. So a mode starts only if
it lists `HTTPSERVER` before `RPCMODE`, and a started node has nonzero chain and network ids
whenever `DEF_GENESIS_CHAINID` is nonzero. A loop that fails leaves the objects of the modules
before the failing one attached.
-/

namespace MetabaseNet.Blockchain

open MetabaseNet.Mtbase

-----------------------------------------------------------------------------------------
-- Modes, modules and configuration
-----------------------------------------------------------------------------------------

/-- `EModeType`, by the two modes `Initialize` tests; `other` is any further mode. -/
inductive EModeType where
  | modeServer
  | modeMiner
  | other (value : Nat)
deriving DecidableEq, Repr

/-- `EModuleType`: the cases of the switch of `InitializeModules`, and `unknown` for any value
that reaches its `default` branch, which only prints the value.
-/
inductive EModuleType where
  | lock | blockMaker | coreProtocol | dispatcher | httpGet | httpServer | netChannel
  | blockChannel | certTxChannel | userTxChannel | delegatedChannel | network | rpcClient
  | rpcMode | service | txPool | wallet | blockChain | forkManager | consensus | dataStat
  | recovery
  | unknown
deriving DecidableEq, Repr

/-- The module objects `InitializeModules` creates with `new`, by class; `CRPCClient` with its
constructor argument `vecCommand.empty()`.
-/
inductive IBase where
  | cBlockMaker | cCoreProtocol | cTestNetCoreProtocol | cDispatcher | cHttpGet | cHttpServer
  | cNetChannel | cBlockChannel | cCertTxChannel | cUserTxChannel | cDelegatedChannel | cNetwork
  | cRPCClient (vecCommandEmpty : Bool)
  | cRPCMod | cService | cTxPool | cWallet | cDummyWallet | cBlockChain | cForkManager
  | cConsensus | cDataStat | cRecovery
deriving DecidableEq, Repr

/-- What the entry reads of its configuration: `config.GetModeType()`, the fields of
`config.GetConfig()` that `Initialize` and `InitializeModules` test, and the configuration
object itself, for `CastConfigPtr` in `GetRPCHostConfig`.
-/
structure EntryConfig where
  mode : EModeType
  fHelp : Bool
  fVersion : Bool
  fPurge : Bool
  nLogFileSize : Int
  nLogHistorySize : Int
  fDaemon : Bool
  fTestNet : Bool
  fFastTest : Bool
  fTestMainnet : Bool
  nChainId : UInt32
  nNetId : UInt32
  fWallet : Bool
  vecCommand : List String
  object : Config

/-- The answers `Initialize` and `InitializeModules` get from outside the entry: the loading of
the configuration, the file system at `pathData`, `RunInBackground` in the process that goes
on, the log, `docker.Initialize`, `TryLockFile` on `pathData / ".lock"`, and whether
`docker.Attach` accepts an object, given the objects attached before it.
-/
structure Environment where
  loaded : Bool
  pathExists : Bool
  createDirectories : Bool
  isDirectory : Bool
  spaceAvailable : Nat
  runInBackground : Bool
  setLogFilePath : Bool
  initLog : Bool
  dockerInitialize : Bool
  tryLockFile : Bool
  attach : List IBase → IBase → Bool

/-- The docker as the entry changes it: the objects attached, in order, and the host
configurations `AddNewHost` gave the HTTP server.
-/
structure Docker where
  attached : List IBase
  hosts : List CHttpHostConfig

/-- The globals `Initialize` sets from the configuration. -/
structure Globals where
  TESTNET_FLAG : Bool
  FASTTEST_FLAG : Bool
  TESTMAINNET_FLAG : Bool
  GENESIS_CHAINID : UInt32
  NETWORK_NETID : UInt32

-----------------------------------------------------------------------------------------
-- AttachModule and InitializeModules
-----------------------------------------------------------------------------------------

/-- `AttachModule(pBase)`: `docker.Attach(pBase)`, or `delete pBase` and false. `pBase` comes
from `new`, which does not return `nullptr`.
-/
def attachModule (attach : List IBase → IBase → Bool) (docker : Docker) (pBase : IBase)
    : Bool × Docker :=
  if attach docker.attached pBase then (true, { docker with attached := docker.attached ++ [pBase] })
  else (false, docker)

/-- The object the case of a module creates and passes to `AttachModule`; `LOCK` and the
`default` branch create none.
-/
def newModule (cfg : EntryConfig) : EModuleType → Option IBase
  | .lock => none
  | .blockMaker => some .cBlockMaker
  | .coreProtocol => some (if cfg.fTestNet then .cTestNetCoreProtocol else .cCoreProtocol)
  | .dispatcher => some .cDispatcher
  | .httpGet => some .cHttpGet
  | .httpServer => some .cHttpServer
  | .netChannel => some .cNetChannel
  | .blockChannel => some .cBlockChannel
  | .certTxChannel => some .cCertTxChannel
  | .userTxChannel => some .cUserTxChannel
  | .delegatedChannel => some .cDelegatedChannel
  | .network => some .cNetwork
  | .rpcClient => some (.cRPCClient cfg.vecCommand.isEmpty)
  | .rpcMode => some .cRPCMod
  | .service => some .cService
  | .txPool => some .cTxPool
  | .wallet => some (if cfg.fWallet then .cWallet else .cDummyWallet)
  | .blockChain => some .cBlockChain
  | .forkManager => some .cForkManager
  | .consensus => some .cConsensus
  | .dataStat => some .cDataStat
  | .recovery => some .cRecovery
  | .unknown => none

/-- One case of the switch of `InitializeModules`, with `GENESIS_CHAINID` as a parameter:
whether the loop goes on, and the docker after the case. `LOCK` takes the lock on the data
directory; `RPCMODE` needs the object `docker.GetObject("httpserver")`, the attached
`CHttpServer`, adds the hosts of `GetRPCHostConfig` to it, then attaches `CRPCMod`; the
`default` branch goes on; every other case attaches its object.
-/
def initializeModule (env : Environment) (cfg : EntryConfig) (genesisChainId : UInt32)
    (docker : Docker) (m : EModuleType) : Bool × Docker :=
  match m with
  | .lock => (env.tryLockFile, docker)
  | .rpcMode =>
      if IBase.cHttpServer ∈ docker.attached then
        match getRPCHostConfig genesisChainId cfg.object [] with
        | (true, vHostCfg) =>
            attachModule env.attach { docker with hosts := docker.hosts ++ vHostCfg } .cRPCMod
        | (false, _) => (false, docker)
      else (false, docker)
  | m =>
      match newModule cfg m with
      | some pBase => attachModule env.attach docker pBase
      | none => (true, docker)

/-- `bool CBbEntry::InitializeModules(const EModeType& mode)` over the modules
`CMode::GetModules(mode)`: the result and the docker, which keeps what the cases before a
failure attached.
-/
def initializeModules (env : Environment) (cfg : EntryConfig) (genesisChainId : UInt32)
    : List EModuleType → Docker → Bool × Docker
  | [], docker => (true, docker)
  | m :: rest, docker =>
      match initializeModule env cfg genesisChainId docker m with
      | (true, docker) => initializeModules env cfg genesisChainId rest docker
      | (false, docker) => (false, docker)

-----------------------------------------------------------------------------------------
-- Initialize
-----------------------------------------------------------------------------------------

/-- `MINIMUM_HARD_DISK_AVAILABLE`: 100 MiB. -/
def MINIMUM_HARD_DISK_AVAILABLE : Nat := 104857600

/-- The check of `Initialize` that returned false. -/
inductive InitFailure where
  | load | help | version | purge | logFileSize | logHistorySize | createDirectory
  | dataDirectory | hardDisk | runInBackground | logFile | docker | modules
deriving DecidableEq, Repr

/-- Whether the mode is `MODE_SERVER` or `MODE_MINER`, where `Initialize` daemonizes and opens
the log file.
-/
def EModeType.isServerOrMiner : EModeType → Bool
  | .modeServer | .modeMiner => true
  | .other _ => false

/-- The globals as `Initialize` sets them: the flags from the configuration; `GENESIS_CHAINID`
from `nChainId`, or `DEF_GENESIS_CHAINID` when that is 0; `NETWORK_NETID` from `nNetId`, or
`GENESIS_CHAINID` when that is 0.
-/
def setGlobals (DEF_GENESIS_CHAINID : UInt32) (cfg : EntryConfig) : Globals :=
  let genesis := if cfg.nChainId = 0 then DEF_GENESIS_CHAINID else cfg.nChainId
  ⟨cfg.fTestNet, cfg.fFastTest, cfg.fTestMainnet, genesis,
    if cfg.nNetId = 0 then genesis else cfg.nNetId⟩

/-- The checks of `Initialize` before it sets the globals, in the source's order, each with
the failure it returns.
-/
def initializeCheckList (env : Environment) (cfg : EntryConfig) : List (Bool × InitFailure) :=
  [(!env.loaded, .load),
    (cfg.fHelp, .help),
    (cfg.fVersion, .version),
    (cfg.fPurge, .purge),
    (decide (cfg.nLogFileSize < 1 ∨ cfg.nLogFileSize > 2048), .logFileSize),
    (decide (cfg.nLogHistorySize < 2 ∨ cfg.nLogHistorySize > 0x7FFFFFFF), .logHistorySize),
    (!env.pathExists && !env.createDirectories, .createDirectory),
    (!env.isDirectory, .dataDirectory),
    (decide (env.spaceAvailable < MINIMUM_HARD_DISK_AVAILABLE), .hardDisk),
    (cfg.fDaemon && cfg.mode.isServerOrMiner && !env.runInBackground, .runInBackground)]

/-- The first of the checks that fails, if one does: `Initialize` returns false there. -/
def initializeChecks (env : Environment) (cfg : EntryConfig) : Option InitFailure :=
  ((initializeCheckList env cfg).find? (·.1)).map (·.2)

/-- `bool CBbEntry::Initialize(int argc, char* argv[])` after the configuration is parsed, with
the modules of the mode and `DEF_GENESIS_CHAINID` as parameters: the check that failed, if one
did, and the globals and docker afterwards. The globals are set once the checks have passed,
so a failure of the log, the docker or the modules leaves them set.
-/
def initializeEntry (DEF_GENESIS_CHAINID : UInt32) (modules : List EModuleType)
    (env : Environment) (cfg : EntryConfig) (globals : Globals) (docker : Docker)
    : Option InitFailure × Globals × Docker :=
  match initializeChecks env cfg with
  | some failure => (some failure, globals, docker)
  | none =>
      let globals := setGlobals DEF_GENESIS_CHAINID cfg
      if cfg.mode.isServerOrMiner && env.setLogFilePath && !env.initLog then
        (some .logFile, globals, docker)
      else if !env.dockerInitialize then (some .docker, globals, docker)
      else
        match initializeModules env cfg globals.GENESIS_CHAINID modules docker with
        | (true, docker) => (none, globals, docker)
        | (false, docker) => (some .modules, globals, docker)

-----------------------------------------------------------------------------------------
-- What one module case does
-----------------------------------------------------------------------------------------

section Step

variable {env : Environment} {cfg : EntryConfig} {genesisChainId : UInt32}

theorem attachModule_true {attach : List IBase → IBase → Bool} {docker final : Docker}
    {pBase : IBase} (attached : attachModule attach docker pBase = (true, final))
    : final = { docker with attached := docker.attached ++ [pBase] } := by
  unfold attachModule at attached
  split_ifs at attached
  · exact (Prod.mk.inj attached).2.symm
  · simp at attached

/-- Only the `HTTPSERVER` case creates a `CHttpServer`. -/
theorem eq_httpServer_of_newModule {m : EModuleType} (created : newModule cfg m = some .cHttpServer)
    : m = .httpServer := by
  cases m <;> simp only [newModule, Option.some.injEq, reduceCtorEq] at created ⊢
  · split_ifs at created
  · split_ifs at created

/-- A case that lets the loop go on attached the object its module creates, if any; `RPCMODE`
found the HTTP server attached and first gave it the hosts of `GetRPCHostConfig`.
-/
theorem initializeModule_true {docker final : Docker} {m : EModuleType}
    (goesOn : initializeModule env cfg genesisChainId docker m = (true, final))
    : final.attached = docker.attached ++ (newModule cfg m).toList
      ∧ final.hosts = docker.hosts
          ++ (if m = .rpcMode then (getRPCHostConfig genesisChainId cfg.object []).2 else [])
      ∧ (m = .rpcMode → IBase.cHttpServer ∈ docker.attached) := by
  cases m
  case lock =>
    obtain ⟨-, rfl⟩ := Prod.mk.inj goesOn
    simp [newModule]
  case rpcMode =>
    simp only [initializeModule] at goesOn
    split_ifs at goesOn with server
    · split at goesOn
      · rename_i vHostCfg found
        rw [attachModule_true goesOn]
        simp [newModule, found, server]
      · simp at goesOn
    · simp at goesOn
  case unknown =>
    obtain ⟨-, rfl⟩ := Prod.mk.inj goesOn
    simp [newModule]
  all_goals
    rw [attachModule_true goesOn]
    simp [newModule]

end Step

-----------------------------------------------------------------------------------------
-- Runs of the module loop
-----------------------------------------------------------------------------------------

section Run

variable {env : Environment} {cfg : EntryConfig} {genesisChainId : UInt32}

theorem initializeModules_cons_true {m : EModuleType} {rest : List EModuleType}
    {docker final : Docker}
    (started : initializeModules env cfg genesisChainId (m :: rest) docker = (true, final))
    : ∃ middle, initializeModule env cfg genesisChainId docker m = (true, middle)
        ∧ initializeModules env cfg genesisChainId rest middle = (true, final) := by
  rw [initializeModules] at started
  split at started
  · rename_i middle found
    exact ⟨middle, found, started⟩
  · simp at started

/-- A run that returns true attached, in the order of the modules, the object of each module
that creates one, and gave the HTTP server the hosts of `GetRPCHostConfig` once for each
`RPCMODE`. By induction on the modules, one successful case at a time.
-/
theorem initializeModules_attaches_in_order {modules : List EModuleType} {docker final : Docker}
    (started : initializeModules env cfg genesisChainId modules docker = (true, final))
    : final.attached = docker.attached ++ modules.filterMap (newModule cfg)
      ∧ final.hosts = docker.hosts ++ (modules.filter (· = .rpcMode)).flatMap
          fun _ => (getRPCHostConfig genesisChainId cfg.object []).2 := by
  induction modules generalizing docker with
  | nil =>
      obtain ⟨-, rfl⟩ := Prod.mk.inj started
      simp
  | cons m rest ih =>
      obtain ⟨middle, goesOn, run⟩ := initializeModules_cons_true started
      obtain ⟨attached, hosts, -⟩ := initializeModule_true goesOn
      obtain ⟨attached', hosts'⟩ := ih run
      refine ⟨?_, ?_⟩
      · rw [attached', attached, List.filterMap_cons]
        cases newModule cfg m <;> simp
      · rw [hosts', hosts]
        by_cases rpc : m = .rpcMode <;> simp [rpc]

/-- A run from a docker without the HTTP server returns true only if every `RPCMODE` of the
modules comes after an `HTTPSERVER`: the `RPCMODE` case needs `docker.GetObject("httpserver")`,
and only the `HTTPSERVER` case attaches a `CHttpServer`. By induction on the modules.
-/
theorem initializeModules_httpServer_before_rpcMode {modules : List EModuleType}
    {docker : Docker} (noServer : IBase.cHttpServer ∉ docker.attached)
    (started : (initializeModules env cfg genesisChainId modules docker).1 = true)
    : ∀ i : Nat, modules[i]? = some EModuleType.rpcMode
        → ∃ j < i, modules[j]? = some EModuleType.httpServer := by
  induction modules generalizing docker with
  | nil => simp
  | cons m rest ih =>
      obtain ⟨middle, goesOn, run⟩ := initializeModules_cons_true (Prod.ext started rfl)
      obtain ⟨attached, -, needsServer⟩ := initializeModule_true goesOn
      have notRpc : m ≠ .rpcMode := fun rpc => noServer (needsServer rpc)
      intro i found
      cases i with
      | zero =>
          rw [List.getElem?_cons_zero] at found
          exact absurd (Option.some.inj found) notRpc
      | succ i =>
          by_cases server : m = .httpServer
          · exact ⟨0, Nat.succ_pos i, by rw [server, List.getElem?_cons_zero]⟩
          · have stillNone : IBase.cHttpServer ∉ middle.attached := by
              rw [attached, List.mem_append]
              rintro (before | created)
              · exact noServer before
              · exact server (eq_httpServer_of_newModule (Option.mem_toList.mp created))
            rw [List.getElem?_cons_succ] at found
            obtain ⟨j, earlier, atJ⟩ := ih stillNone (congrArg Prod.fst run) i found
            exact ⟨j + 1, Nat.succ_lt_succ earlier, by rwa [List.getElem?_cons_succ]⟩

end Run

/-- `HTTPSERVER` then `RPCMODE`, from an empty docker that accepts every object, with an RPC
server configuration for the genesis chain `1` and a second chain `2`.
-/
theorem initializeModules_httpServer_before_rpcMode_serverFirst
    : let env : Environment := ⟨true, true, true, true, 104857600, true, true, true, true, true,
        fun _ _ => true⟩
      let cfg : EntryConfig := ⟨.modeServer, false, false, false, 10, 10, false, false, false,
        false, 1, 0, true, [], .rpcServer ⟨false, false, "", "", "", "", "", "",
          ⟨.v4 0x7F000001, 8812⟩, 100, [], [(2, 8813)]⟩⟩
      IBase.cHttpServer ∉ ([] : List IBase)
      ∧ (initializeModules env cfg 1 [.httpServer, .rpcMode] ⟨[], []⟩).1 = true
      ∧ ∀ i : Nat, [EModuleType.httpServer, .rpcMode][i]? = some EModuleType.rpcMode
        → ∃ j < i, [EModuleType.httpServer, .rpcMode][j]? = some EModuleType.httpServer := by
  intro env cfg
  have noServer : IBase.cHttpServer ∉ ([] : List IBase) := List.not_mem_nil _
  have started : (initializeModules env cfg 1 [.httpServer, .rpcMode] ⟨[], []⟩).1 = true := by
    decide
  exact ⟨noServer, started, initializeModules_httpServer_before_rpcMode noServer started⟩

-----------------------------------------------------------------------------------------
-- Runs of the module loop that fail
-----------------------------------------------------------------------------------------

section Failure

variable {env : Environment} {cfg : EntryConfig} {genesisChainId : UInt32}

theorem attachModule_false {attach : List IBase → IBase → Bool} {docker final : Docker}
    {pBase : IBase} (refused : attachModule attach docker pBase = (false, final))
    : final = docker ∧ attach docker.attached pBase = false := by
  unfold attachModule at refused
  split_ifs at refused with accepted
  · simp at refused
  · exact ⟨(Prod.mk.inj refused).2.symm, by simpa using accepted⟩

/-- A case that stops the loop attached nothing: `LOCK` did not get the lock, `RPCMODE` found
no HTTP server or no RPC server configuration, or `docker.Attach` refused the object, which
`AttachModule` then deletes.
-/
theorem initializeModule_false {docker final : Docker} {m : EModuleType}
    (stops : initializeModule env cfg genesisChainId docker m = (false, final))
    : final.attached = docker.attached
      ∧ (m = .lock ∧ env.tryLockFile = false
        ∨ m = .rpcMode ∧ (IBase.cHttpServer ∉ docker.attached
            ∨ (getRPCHostConfig genesisChainId cfg.object []).1 = false)
        ∨ ∃ pBase, newModule cfg m = some pBase ∧ env.attach docker.attached pBase = false) := by
  cases m
  case lock =>
    obtain ⟨locked, rfl⟩ := Prod.mk.inj stops
    exact ⟨rfl, .inl ⟨rfl, locked⟩⟩
  case rpcMode =>
    simp only [initializeModule] at stops
    split_ifs at stops with server
    · split at stops
      · obtain ⟨rfl, refused⟩ := attachModule_false stops
        exact ⟨rfl, .inr (.inr ⟨.cRPCMod, rfl, refused⟩)⟩
      · rename_i noConfig
        obtain ⟨-, rfl⟩ := Prod.mk.inj stops
        exact ⟨rfl, .inr (.inl ⟨rfl, .inr (by rw [noConfig])⟩)⟩
    · obtain ⟨-, rfl⟩ := Prod.mk.inj stops
      exact ⟨rfl, .inr (.inl ⟨rfl, .inl server⟩)⟩
  case unknown => simp [initializeModule, newModule] at stops
  all_goals
    obtain ⟨rfl, refused⟩ := attachModule_false stops
    exact ⟨rfl, .inr (.inr ⟨_, rfl, refused⟩)⟩

/-- A run that returns false stopped at one module. The objects of the modules before it stay
attached, since `InitializeModules` detaches nothing on failure; the module it stopped at
attached nothing, for one of the reasons of `initializeModule_false`, over the objects attached
before it. By induction on the modules.
-/
theorem initializeModules_failure_keeps_prefix {modules : List EModuleType}
    {docker final : Docker}
    (failed : initializeModules env cfg genesisChainId modules docker = (false, final))
    : ∃ pre m post, modules = pre ++ m :: post
        ∧ final.attached = docker.attached ++ pre.filterMap (newModule cfg)
        ∧ (m = .lock ∧ env.tryLockFile = false
          ∨ m = .rpcMode ∧ (IBase.cHttpServer ∉ docker.attached ++ pre.filterMap (newModule cfg)
              ∨ (getRPCHostConfig genesisChainId cfg.object []).1 = false)
          ∨ ∃ pBase, newModule cfg m = some pBase
              ∧ env.attach (docker.attached ++ pre.filterMap (newModule cfg)) pBase = false) := by
  induction modules generalizing docker with
  | nil => simp [initializeModules] at failed
  | cons m rest ih =>
      rw [initializeModules] at failed
      split at failed
      · rename_i middle goesOn
        obtain ⟨pre, stop, post, rfl, attached, cause⟩ := ih failed
        have shift : middle.attached ++ pre.filterMap (newModule cfg)
            = docker.attached ++ (m :: pre).filterMap (newModule cfg) := by
          rw [(initializeModule_true goesOn).1, List.filterMap_cons]
          cases newModule cfg m <;> simp
        rw [shift] at attached cause
        exact ⟨m :: pre, stop, post, rfl, attached, cause⟩
      · rename_i stopped stops
        obtain ⟨-, rfl⟩ := Prod.mk.inj failed
        obtain ⟨attached, cause⟩ := initializeModule_false stops
        refine ⟨[], m, rest, rfl, ?_, ?_⟩ <;> simpa only [List.filterMap_nil, List.append_nil]

end Failure

/-- `LOCK` then `RPCMODE` from an empty docker: the lock is taken, and the RPC case stops the
run, as no HTTP server is attached.
-/
theorem initializeModules_failure_keeps_prefix_rpcWithoutServer
    : let env : Environment := ⟨true, true, true, true, 104857600, true, true, true, true, true,
        fun _ _ => true⟩
      let cfg : EntryConfig := ⟨.modeServer, false, false, false, 10, 10, false, false, false,
        false, 1, 0, true, [], .other⟩
      initializeModules env cfg 1 [.lock, .rpcMode] ⟨[], []⟩ = (false, ⟨[], []⟩)
      ∧ ∃ pre m post, [EModuleType.lock, .rpcMode] = pre ++ m :: post
        ∧ ([] : List IBase) = [] ++ pre.filterMap (newModule cfg)
        ∧ (m = .lock ∧ env.tryLockFile = false
          ∨ m = .rpcMode ∧ (IBase.cHttpServer ∉ [] ++ pre.filterMap (newModule cfg)
              ∨ (getRPCHostConfig 1 cfg.object []).1 = false)
          ∨ ∃ pBase, newModule cfg m = some pBase
              ∧ env.attach ([] ++ pre.filterMap (newModule cfg)) pBase = false) := by
  intro env cfg
  have failed : initializeModules env cfg 1 [.lock, .rpcMode] ⟨[], []⟩ = (false, ⟨[], []⟩) := rfl
  exact ⟨failed, initializeModules_failure_keeps_prefix failed⟩

-----------------------------------------------------------------------------------------
-- Runs of Initialize
-----------------------------------------------------------------------------------------

/-- The checks pass exactly when each of them holds. -/
theorem initializeChecks_eq_none {env : Environment} {cfg : EntryConfig}
    : initializeChecks env cfg = none
      ↔ env.loaded = true ∧ cfg.fHelp = false ∧ cfg.fVersion = false ∧ cfg.fPurge = false
        ∧ (1 ≤ cfg.nLogFileSize ∧ cfg.nLogFileSize ≤ 2048)
        ∧ (2 ≤ cfg.nLogHistorySize ∧ cfg.nLogHistorySize ≤ 0x7FFFFFFF)
        ∧ (env.pathExists = false → env.createDirectories = true) ∧ env.isDirectory = true
        ∧ MINIMUM_HARD_DISK_AVAILABLE ≤ env.spaceAvailable
        ∧ (cfg.fDaemon = true → cfg.mode.isServerOrMiner = true → env.runInBackground = true) := by
  simp [initializeChecks, initializeCheckList, List.find?_eq_none]

/-- A nonzero `DEF_GENESIS_CHAINID` makes both ids nonzero: each is a nonzero field of the
configuration or a default that is nonzero.
-/
theorem setGlobals_ne_zero {DEF_GENESIS_CHAINID : UInt32} {cfg : EntryConfig}
    (nonzero : DEF_GENESIS_CHAINID ≠ 0)
    : (setGlobals DEF_GENESIS_CHAINID cfg).GENESIS_CHAINID ≠ 0
      ∧ (setGlobals DEF_GENESIS_CHAINID cfg).NETWORK_NETID ≠ 0 := by
  unfold setGlobals
  by_cases chain : cfg.nChainId = 0 <;> by_cases net : cfg.nNetId = 0 <;> simp [chain, net, nonzero]

/-- `Initialize` returns true only after every check passed, in the source's order: the
configuration loaded, no help, version or purge request, both log sizes in range, the data
directory present or created and a directory with 100 MiB free, the daemon started where it is
asked for; then the log opened wherever its path was set (a path that could not be set does not
stop the start) and the docker initialized. The globals are those of `setGlobals`, so the chain and network ids are nonzero
whenever `DEF_GENESIS_CHAINID` is; the docker holds the object of each module of the mode, in
order; and the HTTP server got, once per `RPCMODE`, the hosts `GetRPCHostConfig` gives for the
genesis chain just set.
-/
theorem initializeEntry_starts_node {DEF_GENESIS_CHAINID : UInt32} {modules : List EModuleType}
    {env : Environment} {cfg : EntryConfig} {globals after : Globals} {docker final : Docker}
    (started : initializeEntry DEF_GENESIS_CHAINID modules env cfg globals docker
      = (none, after, final))
    : (env.loaded = true ∧ cfg.fHelp = false ∧ cfg.fVersion = false ∧ cfg.fPurge = false
        ∧ (1 ≤ cfg.nLogFileSize ∧ cfg.nLogFileSize ≤ 2048)
        ∧ (2 ≤ cfg.nLogHistorySize ∧ cfg.nLogHistorySize ≤ 0x7FFFFFFF)
        ∧ (env.pathExists = false → env.createDirectories = true) ∧ env.isDirectory = true
        ∧ MINIMUM_HARD_DISK_AVAILABLE ≤ env.spaceAvailable
        ∧ (cfg.fDaemon = true → cfg.mode.isServerOrMiner = true → env.runInBackground = true))
      ∧ (cfg.mode.isServerOrMiner = true → env.setLogFilePath = true → env.initLog = true)
      ∧ env.dockerInitialize = true
      ∧ after = setGlobals DEF_GENESIS_CHAINID cfg
      ∧ (DEF_GENESIS_CHAINID ≠ 0 → after.GENESIS_CHAINID ≠ 0 ∧ after.NETWORK_NETID ≠ 0)
      ∧ final.attached = docker.attached ++ modules.filterMap (newModule cfg)
      ∧ final.hosts = docker.hosts ++ (modules.filter (· = .rpcMode)).flatMap
          fun _ => (getRPCHostConfig after.GENESIS_CHAINID cfg.object []).2 := by
  unfold initializeEntry at started
  split at started
  · simp at started
  · rename_i checks
    dsimp only at started
    split_ifs at started with logOpen dockerInit
    · simp at started
    · simp at started
    · split at started
      · rename_i finalDocker run
        obtain ⟨rfl, rfl⟩ := Prod.mk.inj (Prod.mk.inj started).2
        have logged : cfg.mode.isServerOrMiner = true → env.setLogFilePath = true
            → env.initLog = true := by simpa using logOpen
        exact ⟨initializeChecks_eq_none.mp checks, logged, by simpa using dockerInit, rfl,
          setGlobals_ne_zero, initializeModules_attaches_in_order run⟩
      · simp at started

/-- A server with chain id `0` in its configuration, started on the default genesis chain `1`
with the lock and the HTTP server.
-/
theorem initializeEntry_starts_node_defaultChain
    : let env : Environment := ⟨true, true, true, true, 104857600, true, true, true, true, true,
        fun _ _ => true⟩
      let cfg : EntryConfig := ⟨.modeServer, false, false, false, 10, 10, false, false, false,
        false, 0, 0, true, [], .other⟩
      initializeEntry 1 [.lock, .httpServer] env cfg ⟨false, false, false, 0, 0⟩ ⟨[], []⟩
        = (none, ⟨false, false, false, 1, 1⟩, ⟨[.cHttpServer], []⟩)
      ∧ (env.loaded = true ∧ cfg.fHelp = false ∧ cfg.fVersion = false ∧ cfg.fPurge = false
        ∧ (1 ≤ cfg.nLogFileSize ∧ cfg.nLogFileSize ≤ 2048)
        ∧ (2 ≤ cfg.nLogHistorySize ∧ cfg.nLogHistorySize ≤ 0x7FFFFFFF)
        ∧ (env.pathExists = false → env.createDirectories = true) ∧ env.isDirectory = true
        ∧ MINIMUM_HARD_DISK_AVAILABLE ≤ env.spaceAvailable
        ∧ (cfg.fDaemon = true → cfg.mode.isServerOrMiner = true → env.runInBackground = true))
      ∧ (cfg.mode.isServerOrMiner = true → env.setLogFilePath = true → env.initLog = true)
      ∧ env.dockerInitialize = true
      ∧ (⟨false, false, false, 1, 1⟩ : Globals) = setGlobals 1 cfg
      ∧ ((1 : UInt32) ≠ 0 → (1 : UInt32) ≠ 0 ∧ (1 : UInt32) ≠ 0)
      ∧ [IBase.cHttpServer] = [] ++ [EModuleType.lock, .httpServer].filterMap (newModule cfg)
      ∧ ([] : List CHttpHostConfig) = [] ++ ([EModuleType.lock, .httpServer].filter
          (· = .rpcMode)).flatMap fun _ => (getRPCHostConfig 1 cfg.object []).2 := by
  intro env cfg
  have checks : initializeChecks env cfg = none := by decide
  have started : initializeEntry 1 [.lock, .httpServer] env cfg ⟨false, false, false, 0, 0⟩
      ⟨[], []⟩ = (none, ⟨false, false, false, 1, 1⟩, ⟨[.cHttpServer], []⟩) := by
    rw [initializeEntry, checks]
    rfl
  exact ⟨started, initializeEntry_starts_node started⟩

end MetabaseNet.Blockchain
