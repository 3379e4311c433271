import Mathlib

/-!
# Identifiers and constants of the protocol

Objects are identified by their instance numbers; the space and type parts of an object id
are those of the index it is looked up in.
-/

namespace Graphene.Protocol

/-- `account_id_type`, by instance number. -/
abbrev AccountId := Nat

def grapheneCommitteeAccount : AccountId := 0

/-- `GRAPHENE_NULL_ACCOUNT`: nobody can act for it. -/
def grapheneNullAccount : AccountId := 3

def grapheneTempAccount : AccountId := 4

/-- `asset_id_type`, by instance number; the core asset is 0. -/
abbrev AssetId := Nat

def grapheneMaxShareSupply : Nat := 1000000000000000

def graphene100Percent : Nat := 10000

def timePointSecMaximum : Nat := 2 ^ 32 - 1

def grapheneCollateralRatioDenom : Nat := 1000

end Graphene.Protocol
