import LowLatencyExchange.Common.LFQueue
import LowLatencyExchange.Exchange.FIFOSequencer
import LowLatencyExchange.Exchange.Ladder
import LowLatencyExchange.Exchange.Ledger
import LowLatencyExchange.Trading.RequestPath
import LowLatencyExchange.Trading.ResponsePath
import LowLatencyExchange.Exchange.Destinations
import LowLatencyExchange.Exchange.Tables
import LowLatencyExchange.Exchange.Anonymity
import LowLatencyExchange.MarketData.Follow
import LowLatencyExchange.Trading.InSync
import LowLatencyExchange.Trading.Incrementals
import LowLatencyExchange.Trading.Isomorphic
import LowLatencyExchange.Trading.RoundTrip
import LowLatencyExchange.Trading.IncrementalFeed
import LowLatencyExchange.Trading.SameBook
import LowLatencyExchange.Exchange.OutputRings
import LowLatencyExchange.MarketData.TwinStreams
import LowLatencyExchange.MarketData.Overcommitted
import LowLatencyExchange.Common.ShortWrites
import LowLatencyExchange.Exchange.Discards
import LowLatencyExchange.Exchange.Fairness
import LowLatencyExchange.Exchange.Cancellation
import LowLatencyExchange.Exchange.Walk
import LowLatencyExchange.Trading.LevelQuantity
import LowLatencyExchange.Trading.EngineStream
import LowLatencyExchange.Book.Tops
import LowLatencyExchange.Trading.BestOffer
import LowLatencyExchange.Common.PoolUse
import LowLatencyExchange.Book.FullTable
import LowLatencyExchange.Trading.Clear
import LowLatencyExchange.Trading.Segmentation
import LowLatencyExchange.Common.LogFile
import LowLatencyExchange.Common.Polling
import LowLatencyExchange.Trading.ValidityCheck
import LowLatencyExchange.Trading.CatchUp
import LowLatencyExchange.MarketData.Drain
import LowLatencyExchange.Exchange.Warrants
import LowLatencyExchange.Trading.Served
import LowLatencyExchange.Exchange.NoOvertaking
import LowLatencyExchange.Trading.ShownQueues
