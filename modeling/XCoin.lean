import XCoin.Emission.Charter
import XCoin.Emission.Generator
import XCoin.Explorer.Agreement
import XCoin.Pow.AsertReference
import XCoin.Pow.AsertMonotone
import XCoin.Script.Budget
import XCoin.Script.FlagMonotone
import XCoin.Script.LeafWarnings
import XCoin.Script.MessageCommits
import XCoin.Script.ThresholdLeaf
import XCoin.Script.TransactionData
import XCoin.Script.TreeRoundTrip
import XCoin.MetalDag.ColdMessages
import XCoin.MetalDag.Hashimoto
import XCoin.Mining.Template
import XCoin.Net.Link
import XCoin.Net.AddedNodeMarks
import XCoin.Net.Chunking
import XCoin.Net.SendStream
import XCoin.Net.Stage2Secret
import XCoin.Pool.CoinbaseRules
import XCoin.Pool.SharedTemplate
import XCoin.Pool.BlockSubmission
import XCoin.Pool.Replay
import XCoin.Validation.Disconnect
import XCoin.Wallet.LevyInverse
import XCoin.MetalDag.Keccak
import XCoin.Mining.WeightOptions
import XCoin.Pool.Bech32m
import XCoin.Pool.PplnsPrefix
import XCoin.Pool.RecentShares
import XCoin.Wallet.PqHd
