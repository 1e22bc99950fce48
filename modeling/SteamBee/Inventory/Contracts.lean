import Mathlib.Data.Nat.Notation

/-! Data exchanged by the market: errors, previews, batch rows and batch jobs.
Amounts are in the wallet's minor units; times are milliseconds. -/
namespace SteamBee

abbrev AccountId := String

/-- The identifiers drawn by `randomUUID`, numbered in the order they are drawn. -/
abbrev Uuid := ℕ

inductive ErrorCode where
  | conflict | rateLimited | validation | notFound
  deriving DecidableEq, Repr

structure AppError where
  message : String
  statusCode : ℕ
  code : ErrorCode := .conflict
  deriving DecidableEq, Repr

namespace Inventory

abbrev Actor := String

structure MarketCurrency where
  id : ℕ
  code : String
  minorUnit : ℕ
  priceStep : Option ℕ := none
  deriving DecidableEq, Repr

structure MarketActionResult where
  ok : Bool
  listingId : Option String
  pendingConfirmation : Bool
  message : String
  deriving DecidableEq, Repr

/-- What a market action throws: an application error with the marks the batch
runner reads. `message` and `statusCode` are absent on a foreign error. -/
structure ActionError where
  message : Option String
  statusCode : Option ℕ := none
  notSubmitted : Bool := false
  stopBatch : Bool := false
  deriving DecidableEq, Repr

inductive MarketKind where
  | sale | cancel
  deriving DecidableEq, Repr

inductive RowStatus where
  | ready | unavailable
  deriving DecidableEq, Repr

structure MarketBatchPreviewItem where
  assetId : Option String
  variantId : Option String := none
  listingId : Option String
  name : String
  quantity : ℕ
  buyerPays : Option ℕ
  sellerReceives : Option ℕ
  steamFee : Option ℕ
  publisherFee : Option ℕ
  status : RowStatus
  message : Option String
  deriving DecidableEq, Repr

structure MarketBatchPreview where
  token : Uuid
  expiresAt : ℕ
  kind : MarketKind
  currency : Option MarketCurrency
  items : List MarketBatchPreviewItem
  delaySeconds : ℕ
  totalBuyerPays : ℕ
  totalSellerReceives : ℕ
  deriving DecidableEq, Repr

inductive ItemStatus where
  | queued | running | listed | pendingConfirmation | cancelled | failed | skipped
  deriving DecidableEq, Repr

inductive JobStatus where
  | running | waiting | completed | stopped
  deriving DecidableEq, Repr

structure MarketBatchJobItem where
  assetId : Option String
  variantId : Option String
  listingId : Option String
  name : String
  quantity : ℕ
  status : ItemStatus
  message : Option String
  deriving DecidableEq, Repr

structure MarketBatchJob where
  id : Uuid
  kind : MarketKind
  status : JobStatus
  createdAt : ℕ
  updatedAt : ℕ
  nextActionAt : Option ℕ
  items : List MarketBatchJobItem
  completedCount : ℕ
  totalCount : ℕ
  stopRequested : Bool
  deriving DecidableEq, Repr

end Inventory
end SteamBee
