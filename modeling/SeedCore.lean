import SeedCore.GridSeed.CircularBuffer
import SeedCore.GridSeed.Queue
import SeedCore.GridSeed.Stream
import SeedCore.GridSeed.Threads
import SeedCore.Lib.Bytes
import SeedCore.Lib.Checked
import SeedCore.Lib.Descent
import SeedCore.Lib.Lanes
import SeedCore.Lib.Layers
import SeedCore.Lib.OrderedMap
import SeedCore.Lib.OrderedSet
import SeedCore.Lib.Relational
import SeedCore.Lib.Resp
import SeedCore.Lib.Ring
import SeedCore.Lib.Run
import SeedCore.Lib.Stack
import SeedCore.Lib.Triple
import SeedCore.Lua.Contained
import SeedCore.Lua.Coroutine
import SeedCore.Lua.Direct
import SeedCore.Lua.Dump
import SeedCore.Lua.Engine
import SeedCore.Lua.HotReload
import SeedCore.Lua.Interchange
import SeedCore.Lua.Kept
import SeedCore.Lua.Link
import SeedCore.Lua.Loading
import SeedCore.Lua.Log
import SeedCore.Lua.Meaning
import SeedCore.Lua.Neutral
import SeedCore.Lua.Objects
import SeedCore.Lua.Passing
import SeedCore.Lua.Program
import SeedCore.Lua.Reading
import SeedCore.Lua.Register
import SeedCore.Lua.Registered
import SeedCore.Lua.Reload
import SeedCore.Lua.RoundTrip
import SeedCore.Lua.Slots
import SeedCore.Lua.StackSpace
import SeedCore.Lua.State
import SeedCore.Lua.Tables
import SeedCore.Mysql.Connection
import SeedCore.Mysql.Dispatch
import SeedCore.Mysql.LifeCycle
import SeedCore.Mysql.Protocol
import SeedCore.Mysql.Result
import SeedCore.Mysql.Selection
import SeedCore.Mysql.Statements
import SeedCore.Mysql.Statistics
import SeedCore.Mysql.Success
import SeedCore.Mysql.System
import SeedCore.Redis.AsyncCall
import SeedCore.Redis.AsyncQueue
import SeedCore.Redis.Builder
import SeedCore.Redis.Client
import SeedCore.Redis.Collections
import SeedCore.Redis.Connection
import SeedCore.Redis.Decoding
import SeedCore.Redis.Exchange
import SeedCore.Redis.Exec
import SeedCore.Redis.Hiredis
import SeedCore.Redis.Online
import SeedCore.Redis.Overloads
import SeedCore.Redis.Pairing
import SeedCore.Redis.Profile
import SeedCore.Redis.Reconnect
import SeedCore.Redis.Result
import SeedCore.Redis.Server
import SeedCore.Redis.Service
import SeedCore.Redis.SizeHint
import SeedCore.Redis.StartUp
import SeedCore.Redis.SyncCall
import SeedCore.Redis.TaskBatches
import SeedCore.Redis.Write
