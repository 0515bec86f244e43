import DarkEden.Interaction.Contract
import DarkEden.Driver
import DarkEden.ReaderRules
import DarkEden.Authorization
import DarkEden.Walkers
import DarkEden.AddressSafety
import DarkEden.Target
import DarkEden.Selection
import DarkEden.PointerChase
import DarkEden.Client
import DarkEden.ResponseFormat
import DarkEden.Quiescent
import DarkEden.Atomicity
import DarkEden.PointerOverflow
import DarkEden.FieldTrace
import DarkEden.OverflowGuard
import DarkEden.Gui
import DarkEden.Engine
import DarkEden.Served
import DarkEden.EngineRules
import DarkEden.OwnCoordinates
import DarkEden.Interaction.SearchTree
import DarkEden.NearbyTree
import DarkEden.Selectable
import DarkEden.ReaderBalance
import DarkEden.ReadResult
import DarkEden.PairReads
import DarkEden.TextPrefix
import DarkEden.Traversal
import DarkEden.Interaction.Iteration
import DarkEden.NearbyBounds
import DarkEden.Interaction.Preorder
import DarkEden.NearbyGraph
import DarkEden.DirectRead
import DarkEden.KeyedSearch
import DarkEden.TextSight
import DarkEden.Refusals
import DarkEden.NameRequests
import DarkEden.NearbyNames
import DarkEden.Interaction.Json
import DarkEden.Interaction.Utf16
import DarkEden.ListingText
import DarkEden.PythonClient
import DarkEden.ScanAttribution
import DarkEden.ParseAddress
import DarkEden.PairedCoordinates
import DarkEden.Interaction.Tiling
import DarkEden.ImageLayout
import DarkEden.Interaction.Interleaving
import DarkEden.Concurrency
import DarkEden.ConcurrentSelection
import DarkEden.CoordinateWindow
import DarkEden.CoordinateReads
import DarkEden.Interaction.Cursor
import DarkEden.Interaction.Utf8
import DarkEden.ScanFile
import DarkEden.ScanExport
import DarkEden.Interaction.Descent
import DarkEden.CheatEngine
import DarkEden.NearbyFromModule
import DarkEden.ScriptAgreement
import DarkEden.NearbyCharacters
import DarkEden.PythonValue
import DarkEden.ProcessReads
import DarkEden.Lifecycle
import DarkEden.GuiSelection
