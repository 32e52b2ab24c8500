import MetabaseNet.Mtbase.Routable

/-! `CBbEntry::GetRPCHostConfig`: the host configurations of the RPC server, one for the
genesis chain at the configured endpoint and one per further chain at its own port. The loop
reuses one `CHttpHostConfig` and overwrites two of its fields each time, so the other fields of
every appended configuration are those of the first.
-/

namespace MetabaseNet.Blockchain

open MetabaseNet.Mtbase

-----------------------------------------------------------------------------------------
-- Configuration records
-----------------------------------------------------------------------------------------

/-- `boost::asio::ip::tcp::endpoint`: an address and a port. -/
structure Endpoint where
  address : Address
  port : UInt16

/-- The fields of `CRPCServerConfig` that `GetRPCHostConfig` reads. -/
structure CRPCServerConfig where
  fRPCSSLEnable : Bool
  fRPCSSLVerify : Bool
  strRPCCAFile : String
  strRPCCertFile : String
  strRPCPKFile : String
  strRPCCiphers : String
  strRPCUser : String
  strRPCPass : String
  epRPC : Endpoint
  nRPCMaxConnections : UInt32
  vRPCAllowIP : List String
  vecChainIdRpcPort : List (UInt32 × UInt16)

/-- The configuration behind `config.GetConfig()`: an RPC server configuration, or one of
another class.
-/
inductive Config where
  | rpcServer (c : CRPCServerConfig)
  | other

/-- `CastConfigPtr<CRPCServerConfig*>`: `nullptr` unless the configuration is an RPC server
configuration.
-/
def castConfigPtr : Config → Option CRPCServerConfig
  | .rpcServer c => some c
  | .other => none

/-- `CIOSSLOption`, by the arguments of its constructor. -/
structure CIOSSLOption where
  fEnable : Bool
  fVerifyPeer : Bool
  strPathCA : String
  strPathCert : String
  strPathPK : String
  strCiphers : String

/-- `mtbase::CHttpHostConfig`, by the arguments of its constructor. -/
structure CHttpHostConfig where
  nLinkChainId : UInt32
  epHost : Endpoint
  nMaxConnections : UInt32
  optSSL : CIOSSLOption
  mapUserPass : List (String × String)
  vAllowMask : List String
  strIOModule : String

-----------------------------------------------------------------------------------------
-- GetRPCHostConfig
-----------------------------------------------------------------------------------------

/-- The host configuration `cfgHost` as first built: the genesis chain at `epRPC`, with the SSL
option, the user map (one entry when `strRPCUser` is not empty), the allowed addresses and the
module name `rpcmod`.
-/
def rpcHostConfig (genesisChainId : UInt32) (pConfig : CRPCServerConfig) : CHttpHostConfig :=
  let sslRPC : CIOSSLOption :=
    ⟨pConfig.fRPCSSLEnable, pConfig.fRPCSSLVerify, pConfig.strRPCCAFile, pConfig.strRPCCertFile,
      pConfig.strRPCPKFile, pConfig.strRPCCiphers⟩
  let mapUsrRPC :=
    if pConfig.strRPCUser.isEmpty then [] else [(pConfig.strRPCUser, pConfig.strRPCPass)]
  ⟨genesisChainId, pConfig.epRPC, pConfig.nRPCMaxConnections, sslRPC, mapUsrRPC,
    pConfig.vRPCAllowIP, "rpcmod"⟩

/-- One pass of the loop over `vecChainIdRpcPort`, on the pair `vd`: the genesis chain is
skipped; any other chain overwrites `nLinkChainId` and `epHost` of `cfgHost` and pushes it.
-/
def rpcHostStep (genesisChainId : UInt32) (epRPC : Endpoint)
    (state : CHttpHostConfig × List CHttpHostConfig) (vd : UInt32 × UInt16)
    : CHttpHostConfig × List CHttpHostConfig :=
  let (cfgHost, vHostCfg) := state
  if vd.1 = genesisChainId then (cfgHost, vHostCfg)
  else
    let cfgHost := { cfgHost with nLinkChainId := vd.1, epHost := ⟨epRPC.address, vd.2⟩ }
    (cfgHost, vHostCfg ++ [cfgHost])

/-- `bool CBbEntry::GetRPCHostConfig(std::vector<CHttpHostConfig>& vHostCfg)`, with
`GENESIS_CHAINID` as a parameter: the result and the final `vHostCfg`.
-/
def getRPCHostConfig (genesisChainId : UInt32) (config : Config) (vHostCfg : List CHttpHostConfig)
    : Bool × List CHttpHostConfig :=
  match castConfigPtr config with
  | none => (false, vHostCfg)
  | some pConfig =>
      let cfgHost := rpcHostConfig genesisChainId pConfig
      let vHostCfg := vHostCfg ++ [cfgHost]
      (true, (pConfig.vecChainIdRpcPort.foldl (rpcHostStep genesisChainId pConfig.epRPC)
        (cfgHost, vHostCfg)).2)

-----------------------------------------------------------------------------------------
-- The loop
-----------------------------------------------------------------------------------------

section Loop

variable {genesisChainId : UInt32} {epRPC : Endpoint} {vd : UInt32 × UInt16}
  {cfgHost : CHttpHostConfig} {vHostCfg : List CHttpHostConfig}

theorem rpcHostStep_genesis (genesis : vd.1 = genesisChainId)
    : rpcHostStep genesisChainId epRPC (cfgHost, vHostCfg) vd = (cfgHost, vHostCfg) := by
  rw [rpcHostStep, if_pos genesis]

theorem rpcHostStep_other (other : vd.1 ≠ genesisChainId)
    : rpcHostStep genesisChainId epRPC (cfgHost, vHostCfg) vd
      = ({ cfgHost with nLinkChainId := vd.1, epHost := ⟨epRPC.address, vd.2⟩ },
          vHostCfg
            ++ [{ cfgHost with nLinkChainId := vd.1, epHost := ⟨epRPC.address, vd.2⟩ }]) := by
  rw [rpcHostStep, if_neg other]

end Loop

/-- The loop appends, for each pair of another chain in list order, `cfgHost` with that chain
and its port; the fields it does not overwrite stay those of the `cfgHost` it started from.
Proof: induction on the list, generalising the reused `cfgHost`; overwriting the same two
fields twice keeps only the second write.
-/
theorem foldl_rpcHostStep (genesisChainId : UInt32) (epRPC : Endpoint)
    (pairs : List (UInt32 × UInt16)) (cfgHost : CHttpHostConfig) (vHostCfg : List CHttpHostConfig)
    : (pairs.foldl (rpcHostStep genesisChainId epRPC) (cfgHost, vHostCfg)).2
      = vHostCfg ++ (pairs.filter fun vd => vd.1 ≠ genesisChainId).map
          fun vd => { cfgHost with nLinkChainId := vd.1, epHost := ⟨epRPC.address, vd.2⟩ } := by
  induction pairs generalizing cfgHost vHostCfg with
  | nil => simp
  | cons vd rest ih =>
      by_cases genesis : vd.1 = genesisChainId
      · rw [List.foldl_cons, rpcHostStep_genesis genesis, ih,
          List.filter_cons_of_neg (by simpa using genesis)]
      · rw [List.foldl_cons, rpcHostStep_other genesis, ih,
          List.filter_cons_of_pos (by simpa using genesis), List.map_cons, List.append_assoc,
          List.singleton_append]

/-- `GetRPCHostConfig` returns false and leaves `vHostCfg` unchanged unless the configuration
is an RPC server configuration. On one, it returns true, keeps `vHostCfg`, and appends `1 + m`
host configurations for the `m` pairs `(c, port)` with `c != GENESIS_CHAINID`: first the genesis
chain at `epRPC`, then each such chain at `(epRPC.address(), port)` in list order, every other
field equal to those of the first.
-/
theorem getRPCHostConfig_appends_chains (genesisChainId : UInt32)
    : (∀ vHostCfg, getRPCHostConfig genesisChainId .other vHostCfg = (false, vHostCfg))
      ∧ ∀ (pConfig : CRPCServerConfig) (vHostCfg : List CHttpHostConfig),
        let first := rpcHostConfig genesisChainId pConfig
        let chains := pConfig.vecChainIdRpcPort.filter fun vd => vd.1 ≠ genesisChainId
        getRPCHostConfig genesisChainId (.rpcServer pConfig) vHostCfg
          = (true, vHostCfg ++ first :: chains.map
              fun vd => { first with nLinkChainId := vd.1, epHost := ⟨pConfig.epRPC.address, vd.2⟩ })
        ∧ first.nLinkChainId = genesisChainId ∧ first.epHost = pConfig.epRPC
        ∧ (getRPCHostConfig genesisChainId (.rpcServer pConfig) vHostCfg).2.length
          = vHostCfg.length + 1 + chains.length := by
  refine ⟨fun vHostCfg => rfl, fun pConfig vHostCfg => ?_⟩
  have appended : getRPCHostConfig genesisChainId (.rpcServer pConfig) vHostCfg
      = (true, vHostCfg ++ rpcHostConfig genesisChainId pConfig ::
          (pConfig.vecChainIdRpcPort.filter fun vd => vd.1 ≠ genesisChainId).map
            fun vd => { rpcHostConfig genesisChainId pConfig with
              nLinkChainId := vd.1, epHost := ⟨pConfig.epRPC.address, vd.2⟩ }) := by
    simp only [getRPCHostConfig, castConfigPtr, foldl_rpcHostStep, List.append_assoc,
      List.singleton_append]
  refine ⟨appended, rfl, rfl, ?_⟩
  rw [appended]
  simp only [List.length_append, List.length_cons, List.length_map]
  omega

end MetabaseNet.Blockchain
